import TreeCheck.Context
import TreeCheck.Log

/-!
What the operations of a context tell the log. Rejected operations tell nothing.
-/

namespace TreeCheck.Context

inductive Event where
  | opened (scope depth : Nat)
  | closed (scope depth : Nat)
  | declared (name : Text) (scope depth : Nat)
  | replaced (name old new : Text)
  | registered (name ty : Text)

def Event.entry : Event → Log.Entry
  | .opened scope depth => ⟨.trace, "open scope", [("scope", .int scope), ("depth", .int depth)]⟩
  | .closed scope depth => ⟨.trace, "close scope", [("scope", .int scope), ("depth", .int depth)]⟩
  | .declared name scope depth =>
    ⟨.trace, "declare", [("name", .string name), ("scope", .int scope), ("depth", .int depth)]⟩
  | .replaced name old new =>
    ⟨.debug, "global binding replaced",
      [("name", .string name), ("old", .string old), ("new", .string new)]⟩
  | .registered name ty => ⟨.trace, "register type", [("name", .string name), ("type", .string ty)]⟩

def events (ctx : Context) (names : Interner) : Op → List Event
  | .openScope => [.opened (ctx.last + 1) (ctx.depth + 1)]
  | .closeScope =>
    match ctx.closeScope with
    | .ok (scope, next) => [.closed scope next.depth]
    | .error _ => []
  | .declare name ty =>
    if ctx.depth = 0 then
      match ctx.globals.find? name with
      | some earlier =>
        [.replaced (names.display name) (earlier.ty.label (some names)) (ty.label (some names))]
      | none => []
    else
      match ctx.declare name ty with
      | .ok _ => [.declared (names.display name) ctx.current ctx.depth]
      | .error _ => []
  | .register name ty =>
    match ctx.register name ty with
    | .ok _ => [.registered (names.display name) (ty.label (some names))]
    | .error _ => []

end TreeCheck.Context
