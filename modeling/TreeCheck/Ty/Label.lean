import TreeCheck.Ty

/-!
Labels of types in messages and tables. Nesting deeper than eight levels is cut short; a direct
super type of kind object is shown by its name alone.
-/

namespace TreeCheck.Ty

def labelDepth : Nat := 8

mutual

def labelAt (names : Option Interner) : Ty → Nat → Text
  | mk k e o s, depth =>
    if labelDepth < depth then text "..."
    else if k = .vector then
      text "vector<" ++ labelPart names e (depth + 1) ++ text ">"
    else if k = .object then
      text "object " ++ labelObject names o (depth + 1)
    else if k = .lambda then labelSignature names s (depth + 1)
    else if k = .unresolved then text "?"
    else k.toText

/-- The label of an element or result; a missing one reads as unresolved. -/
def labelPart (names : Option Interner) : Option Ty → Nat → Text
  | some t, depth => labelAt names t depth
  | none, depth => if labelDepth < depth then text "..." else text "?"

def labelObject (names : Option Interner) : Option (ObjectOf Ty) → Nat → Text
  | none, _ => displayWith names Handle.none
  | some ⟨name, supers⟩, depth =>
    displayWith names name ++
      (if supers.isEmpty then []
      else text " : " ++ Text.join (text ", ") (labelSupers names supers depth))

def labelSignature (names : Option Interner) : Option (SignatureOf Ty) → Nat → Text
  | none, depth => text "() -> " ++ labelPart names none depth
  | some ⟨result, args⟩, depth =>
    text "(" ++ Text.join (text ", ") (labelAll names args depth) ++ text ") -> " ++
      labelPart names result depth

def labelSupers (names : Option Interner) : List Ty → Nat → List Text
  | [], _ => []
  | t :: rest, depth =>
    (if t.kind = .object then displayWith names t.objectName else labelAt names t depth) ::
      labelSupers names rest depth

def labelAll (names : Option Interner) : List Ty → Nat → List Text
  | [], _ => []
  | t :: rest, depth => labelAt names t depth :: labelAll names rest depth

end

/-- The label of a type. Without an interner, objects are shown by the number of their handle. -/
def label (t : Ty) (names : Option Interner) : Text :=
  labelAt names t 0

end TreeCheck.Ty
