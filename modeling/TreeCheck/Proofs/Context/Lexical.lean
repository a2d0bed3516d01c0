import Mathlib.Data.List.Forall2
import TreeCheck.Proofs.Context.Sound

/-!
Contexts and lexical environments. A lexical environment is a list of frames over the globals:
opening a scope pushes an empty frame, closing one forgets the innermost frame for good. A context
forgets nothing: its tables stay under their scope numbers and only the stack of numbers shrinks.
Look-up and the acceptance of operations agree all the same, because scope numbers are never used
twice and declarations go to the top of the stack.
-/

namespace TreeCheck

structure Meaning where
  ty : Ty
  depth : Nat

/-- The bindings of one block. The first entry of a name counts. -/
abbrev Frame := List (Handle × Meaning)

structure Lexical where
  frames : List Frame
  globals : Frame

namespace Lexical

def empty : Lexical :=
  ⟨[], []⟩

def openFrame (env : Lexical) : Lexical :=
  { env with frames := [] :: env.frames }

/-- Forgets the innermost frame; there may be none. -/
def closeFrame? (env : Lexical) : Option Lexical :=
  match env.frames with
  | [] => none
  | _ :: outer => some { env with frames := outer }

/-- Binds a name in the innermost frame, which must not have it, or among the globals. -/
def declare? (env : Lexical) (name : Handle) (ty : Ty) : Option Lexical :=
  match env.frames with
  | [] => some { env with globals := (name, ⟨ty, 0⟩) :: env.globals }
  | frame :: outer =>
    if (frame.lookup name).isSome then none
    else some { env with frames := ((name, ⟨ty, outer.length + 1⟩) :: frame) :: outer }

/-- Searches the frames from the innermost to the outermost, then the globals. -/
def lookup (env : Lexical) (name : Handle) : Option Meaning :=
  (env.frames.findSome? (·.lookup name)).or (env.globals.lookup name)

/-- The type of a name; unresolved where it is not bound. -/
def lookupType (env : Lexical) (name : Handle) : Ty :=
  match env.lookup name with
  | some meaning => meaning.ty
  | none => .unresolved

/-- One operation of a context. Type names are no concern of the environment. -/
def step? (env : Lexical) : Context.Op → Option Lexical
  | .openScope => some env.openFrame
  | .closeScope => env.closeFrame?
  | .declare name ty => env.declare? name ty
  | .register _ _ => some env

/-- A history of operations, where a rejected one changes nothing. -/
def run (env : Lexical) (ops : List Context.Op) : Lexical :=
  ops.foldl (fun env op => (env.step? op).getD env) env

end Lexical

theorem Frame.lookup_cons (name other : Handle) (meaning : Meaning) (frame : Frame) :
    List.lookup other ((name, meaning) :: frame) =
      if other = name then some meaning else frame.lookup other := by
  by_cases same : other = name
  · simp [same]
  · rw [List.lookup_cons, if_neg same, beq_eq_false_iff_ne.mpr same]

def Symbol.meaning (symbol : Symbol) : Meaning :=
  ⟨symbol.ty, symbol.depth⟩

theorem Table.find?_getD_empty {α : Type} (t : Option (Table α)) (key : Nat) :
    (t.getD .empty).find? key = t.bind (·.find? key) := by
  cases t <;> rfl

namespace Context

variable {ctx next : Context} {env : Lexical}

def meaningIn (ctx : Context) (scope : Nat) (name : Handle) : Option Meaning :=
  ((ctx.scopes.find? scope).bind (·.find? name)).map Symbol.meaning

/-- The open scopes of the context are the frames of the environment, one by one. -/
structure Represents (ctx : Context) (env : Lexical) : Prop where
  sound : ctx.Sound
  frames : List.Forall₂ (fun scope frame => ∀ name, ctx.meaningIn scope name = frame.lookup name)
    ctx.active env.frames
  globals : ∀ name, (ctx.globals.find? name).map Symbol.meaning = env.globals.lookup name

def Agrees : Except Rejection Context → Option Lexical → Prop
  | .ok next, some env => next.Represents env
  | .error _, none => True
  | _, _ => False

theorem Agrees.accepted_iff {result : Except Rejection Context} {expected : Option Lexical}
    (agrees : Agrees result expected) :
    (∃ next, result = .ok next) ↔ ∃ env, expected = some env := by
  cases result <;> cases expected <;> simp_all [Agrees]

namespace Represents

theorem start : fresh.Represents .empty where
  sound := sound_fresh
  frames := .nil
  globals := fun _ => rfl

theorem lookupIn_eq {scopes : Table Bindings} {active : List Nat} {frames : List Frame}
    (name : Handle)
    (same : List.Forall₂ (fun scope (frame : Frame) =>
      ((scopes.find? scope).bind (·.find? name)).map Symbol.meaning = frame.lookup name)
      active frames) :
    (lookupIn scopes name active).map Symbol.meaning = frames.findSome? (·.lookup name) := by
  induction same with
  | nil => rfl
  | cons head _ ih =>
    rw [List.findSome?_cons, ← head, lookupIn]
    split
    next symbol found => simp [found]
    next missing => simpa [missing] using ih

theorem lookup_eq (same : ctx.Represents env) (name : Handle) :
    (ctx.lookup name).map Symbol.meaning = env.lookup name := by
  have inner := lookupIn_eq name (same.frames.imp fun _ _ agree => agree name)
  rw [Lexical.lookup, ← inner, ← same.globals name, Context.lookup]
  split
  next symbol found => simp [found]
  next missing => simp [missing]

theorem lookupType_eq (same : ctx.Represents env) (name : Handle) :
    ctx.lookupType name = env.lookupType name := by
  rw [Context.lookupType, Lexical.lookupType, ← same.lookup_eq name]
  cases ctx.lookup name <;> rfl

theorem openScope (same : ctx.Represents env) : ctx.openScope.Represents env.openFrame where
  sound := same.sound.openScope
  frames := by
    refine .cons (fun name => ?_) same.frames
    have absent := same.sound.find?_unallocated (Nat.lt_succ_self ctx.last)
    simp [meaningIn, Context.openScope, absent]
  globals := same.globals

theorem closeScope (same : ctx.Represents env) :
    Agrees (ctx.closeScope.map (·.2)) env.closeFrame? := by
  have frames := same.frames
  cases stack : ctx.active with
  | nil =>
    rw [stack, List.forall₂_nil_left_iff] at frames
    simp [Context.closeScope, stack, Except.map, Lexical.closeFrame?, frames, Agrees]
  | cons top rest =>
    rw [stack] at frames
    obtain ⟨frame, outer, _, tail, shape⟩ := List.forall₂_cons_left_iff.mp frames
    have closed : ctx.closeScope =
        .ok (top, { ctx with depth := ctx.depth - 1, active := rest }) := by
      simp [Context.closeScope, stack]
    rw [closed, Lexical.closeFrame?, shape]
    exact ⟨same.sound.closeScope closed, tail, same.globals⟩

theorem declare_global (same : ctx.Represents env) (global : ctx.depth = 0) (name : Handle)
    (ty : Ty) : Agrees (ctx.declare name ty) (env.declare? name ty) := by
  have stack : ctx.active = [] := List.length_eq_zero_iff.mp (same.sound.depth_eq ▸ global)
  have frames := same.frames
  rw [stack, List.forall₂_nil_left_iff] at frames
  have declared : ctx.declare name ty =
      .ok { ctx with globals := ctx.globals.insert name ⟨ctx.current, 0, ty⟩ } := by
    simp [Context.declare, global]
  rw [declared, Lexical.declare?, frames]
  refine ⟨same.sound.declare declared, stack ▸ .nil, fun other => ?_⟩
  rw [Table.find?_insert, Frame.lookup_cons]
  by_cases equal : other = name
  · simp [equal, Symbol.meaning]
  · rw [if_neg equal, if_neg equal]
    exact same.globals other

/-- Inside a scope its table has a name exactly if the innermost frame has it, and a declaration
leaves the tables below it alone. -/
theorem declare_local (same : ctx.Represents env) (inside : ctx.depth ≠ 0) (name : Handle)
    (ty : Ty) : Agrees (ctx.declare name ty) (env.declare? name ty) := by
  have frames := same.frames
  cases stack : ctx.active with
  | nil => exact absurd (by simp [same.sound.depth_eq, stack]) inside
  | cons top rest =>
    rw [stack] at frames
    obtain ⟨frame, outer, head, tail, shape⟩ := List.forall₂_cons_left_iff.mp frames
    have top_current : ctx.current = top := by simp [current, stack]
    have depth : ctx.depth = outer.length + 1 := by
      rw [same.sound.depth_eq, stack, List.length_cons, tail.length_eq]
    have bound := head name
    rw [meaningIn, ← Table.find?_getD_empty] at bound
    rw [Lexical.declare?, shape]
    cases found : ((ctx.scopes.find? top).getD .empty).find? name with
    | some existing =>
      have rejected : ctx.declare name ty = .error (.duplicate name top existing) := by
        simp [Context.declare, inside, top_current, found]
      rw [found] at bound
      simp [rejected, ← bound, Agrees]
    | none =>
      have declared : ctx.declare name ty = .ok { ctx with
          scopes := ctx.scopes.insert top
            (((ctx.scopes.find? top).getD .empty).insert name ⟨top, outer.length + 1, ty⟩) } := by
        simp only [Context.declare, if_neg inside, top_current, found]
        rw [depth]
      rw [found] at bound
      simp only [declared, ← bound, Option.map_none, Option.isSome_none, Bool.false_eq_true,
        if_false]
      refine ⟨same.sound.declare declared, ?_, same.globals⟩
      rw [stack]
      refine .cons (fun other => ?_) ?_
      · rw [meaningIn, Table.find?_insert, if_pos rfl, Option.bind_some, Table.find?_insert,
          Frame.lookup_cons]
        by_cases equal : other = name
        · simp [equal, Symbol.meaning]
        · rw [if_neg equal, if_neg equal, Table.find?_getD_empty]
          exact head other
      · -- The scopes below the top have other numbers.
        have below := (List.pairwise_cons.mp (stack ▸ same.sound.descending)).1
        obtain ⟨lengths, pairs⟩ := List.forall₂_iff_zip.mp tail
        refine List.forall₂_iff_zip.mpr ⟨lengths, fun {scope frame} member other => ?_⟩
        have different : scope ≠ top := Nat.ne_of_lt (below scope (List.of_mem_zip member).1)
        rw [meaningIn, Table.find?_insert, if_neg different]
        exact pairs member other

theorem declare (same : ctx.Represents env) (name : Handle) (ty : Ty) :
    Agrees (ctx.declare name ty) (env.declare? name ty) := by
  by_cases global : ctx.depth = 0
  · exact same.declare_global global name ty
  · exact same.declare_local global name ty

theorem kept (same : ctx.Represents env) {op : Op} (agrees : Agrees (ctx.step op) (env.step? op)) :
    (ctx.stepOrKeep op).Represents ((env.step? op).getD env) := by
  unfold Context.stepOrKeep
  cases taken : ctx.step op with
  | ok next =>
    cases expected : env.step? op with
    | some nextEnv => simpa [taken, expected, Agrees] using agrees
    | none => simp [taken, expected, Agrees] at agrees
  | error rejection =>
    cases expected : env.step? op with
    | some nextEnv => simp [taken, expected, Agrees] at agrees
    | none => exact same

theorem stepOrKeep (same : ctx.Represents env) (op : Op) :
    (ctx.stepOrKeep op).Represents ((env.step? op).getD env) := by
  cases op with
  | openScope => exact same.openScope
  | closeScope => exact same.kept same.closeScope
  | declare name ty => exact same.kept (same.declare name ty)
  | register name ty =>
    unfold Context.stepOrKeep
    split
    next registered =>
      have sound := same.sound.step registered
      obtain ⟨_, rfl⟩ := register_ok registered
      exact ⟨sound, same.frames, same.globals⟩
    next => exact same

theorem run (same : ctx.Represents env) (ops : List Op) :
    (ctx.run ops).Represents (env.run ops) := by
  induction ops generalizing ctx env with
  | nil => exact same
  | cons op ops ih => exact ih (same.stepOrKeep op)

end Represents

/-- After every history of operations, the context and the naive environment give every name the
same meaning and type, and accept the same declarations and the same closing of a scope. -/
theorem context_refines_lexical (ops : List Op) (name : Handle) :
    ((fresh.run ops).lookup name).map Symbol.meaning = (Lexical.empty.run ops).lookup name ∧
      (fresh.run ops).lookupType name = (Lexical.empty.run ops).lookupType name ∧
      (∀ ty, (∃ next, (fresh.run ops).declare name ty = .ok next) ↔
        ∃ next, (Lexical.empty.run ops).declare? name ty = some next) ∧
      ((∃ next, (fresh.run ops).step .closeScope = .ok next) ↔
        ∃ next, (Lexical.empty.run ops).closeFrame? = some next) := by
  have same := Represents.start.run ops
  refine ⟨same.lookup_eq name, same.lookupType_eq name, fun ty => ?_, ?_⟩
  · exact (same.declare name ty).accepted_iff
  · exact same.closeScope.accepted_iff

end Context

end TreeCheck
