import TreeCheck.Proofs.Check.Emitted
import TreeCheck.Proofs.Ty.Alike

/-!
Two checks side by side. Steps conform if from related states they end alike, with related results
in related states or at the same fault. `Steps` lists what the steps on the state have to keep;
the rules of the check are put together from them by the combinators here.
-/

namespace TreeCheck.Check

variable {α β γ δ : Type}

inductive Ended (rel : State → State → Prop) (post : α → β → Prop) :
    EStateM.Result Fault State α → EStateM.Result Fault State β → Prop
  | ok {a : α} {b : β} {s t : State} : post a b → rel s t → Ended rel post (.ok a s) (.ok b t)
  | error (fault : Fault) {s t : State} : rel s t → Ended rel post (.error fault s) (.error fault t)

def Conform (rel : State → State → Prop) (post : α → β → Prop) (x : Check α) (y : Check β) : Prop :=
  ∀ s t, rel s t → Ended rel post (x.run s) (y.run t)

namespace Conform

variable {rel : State → State → Prop} {post : α → β → Prop} {goal : γ → δ → Prop}
  {x : Check α} {y : Check β} {f : α → Check γ} {g : β → Check δ}

theorem pure {a : α} {b : β} (holds : post a b) :
    Conform rel post (Pure.pure a : Check α) (Pure.pure b : Check β) :=
  fun _ _ related => .ok holds related

theorem bind (first : Conform rel post x y)
    (rest : ∀ a b, post a b → Conform rel goal (f a) (g b)) :
    Conform rel goal (x >>= f) (y >>= g) := by
  intro s t related
  rw [EStateM.run_bind, EStateM.run_bind]
  have ends := first s t related
  generalize x.run s = left at ends
  generalize y.run t = right at ends
  cases ends with
  | ok holds kept => exact rest _ _ holds _ _ kept
  | error fault kept => exact .error fault kept

theorem next (first : Conform rel post x y) (rest : ∀ a b, Conform rel goal (f a) (g b)) :
    Conform rel goal (x >>= f) (y >>= g) :=
  first.bind fun a b _ => rest a b

theorem discard (first : Conform rel post x y) :
    Conform rel (fun _ _ => True) (Functor.discard x) (Functor.discard y) :=
  first.bind fun _ _ _ => pure trivial

theorem ite {c c' : Prop} [Decidable c] [Decidable c'] {x' : Check α} {y' : Check β}
    (same : c ↔ c') (yes : Conform rel post x y) (no : Conform rel post x' y') :
    Conform rel post (if c then x else x') (if c' then y else y') := by
  by_cases holds : c
  · rw [if_pos holds, if_pos (same.mp holds)]
    exact yes
  · rw [if_neg holds, if_neg fun other => holds (same.mpr other)]
    exact no

theorem guarded {c c' : Prop} [Decidable c] [Decidable c'] {told told' : Check Unit}
    {k : Unit → Check γ} {k' : Unit → Check δ} (same : c ↔ c')
    (taken : Conform rel (fun _ _ => True) told told') (rest : Conform rel goal (k ()) (k' ())) :
    Conform rel goal (if c then told >>= k else k ()) (if c' then told' >>= k' else k' ()) :=
  .ite same (taken.next fun _ _ => rest) rest

variable {like : γ → δ → Prop} {xs : List γ} {ys : List δ}

theorem mapM {each : γ → Check α} {each' : δ → Check β} (alike : List.Forall₂ like xs ys)
    (one : ∀ x y, like x y → Conform rel post (each x) (each' y)) :
    Conform rel (List.Forall₂ post) (xs.mapM each) (ys.mapM each') := by
  induction alike with
  | nil => exact pure .nil
  | cons first _ ih =>
    rw [List.mapM_cons, List.mapM_cons]
    exact (one _ _ first).bind fun a b here => ih.bind fun as bs later => pure (.cons here later)

theorem forM {each : γ → Check Unit} {each' : δ → Check Unit} (alike : List.Forall₂ like xs ys)
    (one : ∀ x y, like x y → Conform rel (fun _ _ => True) (each x) (each' y)) :
    Conform rel (fun _ _ => True) (xs.forM each) (ys.forM each') := by
  induction alike with
  | nil => exact pure trivial
  | cons first _ ih => exact (one _ _ first).next fun _ _ => ih

theorem foldlM {each : α → γ → Check α} {each' : β → δ → Check β} (alike : List.Forall₂ like xs ys)
    (one : ∀ a b x y, post a b → like x y → Conform rel post (each a x) (each' b y)) {a : α} {b : β}
    (start : post a b) : Conform rel post (xs.foldlM each a) (ys.foldlM each' b) := by
  induction alike generalizing a b with
  | nil => exact pure start
  | cons first _ ih =>
    rw [List.foldlM_cons, List.foldlM_cons]
    exact (one _ _ _ _ start first).bind fun a b here => ih here

end Conform

structure Steps (l : Likeness) (env env' : Env) (rel : State → State → Prop) : Prop where
  consistent : l.Consistent env.names env'.names
  record (id : Nat) {a b : Ty} : Ty.Alike l a b →
    Conform rel (Ty.Alike l) (record id a) (record id b)
  annotate (slot : Slot) {a b : Ty} : Ty.Alike l a b →
    Conform rel (fun _ _ => True) (annotate slot a) (annotate slot b)
  report {code : Code} {s t : Span} (message : Text) : code ∈ errorCodes → l.span s t →
    Conform rel (fun _ _ => True) (report code s message) (report code t message)
  absent : Conform rel l.span (spanOf none) (spanOf none)
  openScope : Conform rel (fun _ _ => True) openScope openScope
  closeScope : Conform rel (fun _ _ => True) closeScope closeScope
  lookup {h k : Handle} : l.handle h k →
    Conform rel (Option.Rel fun a b => Ty.Alike l a.ty b.ty) (lookup h) (lookup k)
  objectNamed {h k : Handle} : l.handle h k →
    Conform rel (Option.Rel (Ty.Alike l)) (objectNamed h) (objectNamed k)
  member {a b : Ty} {h k : Handle} : Ty.Alike l a b → l.handle h k →
    Conform rel (Option.Rel (Ty.Alike l)) (member a h) (member b k)
  declare {h k : Handle} {a b : Ty} {s t : Span} : l.handle h k → Ty.Alike l a b → l.span s t →
    Conform rel (fun _ _ => True) (declare env h a s) (declare env' k b t)
  registerType {h k : Handle} {a b : Ty} {s t : Span} : l.handle h k → Ty.Alike l a b →
    l.span s t → Conform rel (fun _ _ => True) (registerType env h a s) (registerType env' k b t)
  resolve {h k : Handle} {s t : Span} : l.handle h k → l.span s t →
    Conform rel (Ty.Alike l) (writtenType env h s) (writtenType env' k t)
  addMember {g h k m : Handle} {a b : Ty} {s t : Span} : l.handle g k → l.handle h m →
    Ty.Alike l a b → l.span s t → Conform rel Eq (addMember env g h a s) (addMember env' k m b t)

namespace Steps

variable {l : Likeness} {env env' : Env} {rel : State → State → Prop}
  (steps : Steps l env env' rel)
include steps

theorem name_eq {h k : Handle} (same : l.handle h k) : env.name h = env'.name k :=
  steps.consistent.display same

theorem label_eq {a b : Ty} (alike : Ty.Alike l a b) : env.label a = env'.label b :=
  alike.label_eq steps.consistent

theorem unfit_iff {want want' got got' : Ty} (wanted : Ty.Alike l want want')
    (found : Ty.Alike l got got') :
    (!Ty.compatible want got) = true ↔ (!Ty.compatible want' got') = true := by
  rw [wanted.compatible_eq steps.consistent found]

theorem failed {post : α → β → Prop} {code : Code} {s t : Span} {message message' : Text} {a : α}
    {b : β} (member : code ∈ errorCodes) (place : l.span s t) (same : message = message')
    (holds : post a b) : Conform rel post (do Check.report code s message; return a)
      (do Check.report code t message'; return b) := by
  subst same
  exact (steps.report message member place).next fun _ _ => .pure holds

theorem mismatch {s t : Span} {what what' : Text} {want want' got got' : Ty} (place : l.span s t)
    (same : what = what') (wanted : Ty.Alike l want want') (found : Ty.Alike l got got') :
    Conform rel (fun _ _ => True) (mismatch env s what want got)
      (mismatch env' t what' want' got') := by
  subst same
  unfold Check.mismatch
  rw [steps.label_eq wanted, steps.label_eq found]
  exact steps.report _ (by decide) place

theorem expect {goal : γ → δ → Prop} {s t : Span} {what what' : Text} {want want' got got' : Ty}
    {k : Unit → Check γ} {k' : Unit → Check δ} (place : l.span s t) (same : what = what')
    (wanted : Ty.Alike l want want') (found : Ty.Alike l got got')
    (rest : Conform rel goal (k ()) (k' ())) :
    Conform rel goal
      (if !Ty.compatible want got then Check.mismatch env s what want got >>= k else k ())
      (if !Ty.compatible want' got' then Check.mismatch env' t what' want' got' >>= k'
        else k' ()) :=
  .guarded (steps.unfit_iff wanted found) (steps.mismatch place same wanted found) rest

theorem expected {s t : Span} {what what' : Text} {want want' got got' : Ty} (place : l.span s t)
    (same : what = what') (wanted : Ty.Alike l want want') (found : Ty.Alike l got got') :
    Conform rel (fun _ _ => True)
      (if !Ty.compatible want got then Check.mismatch env s what want got else Pure.pure ())
      (if !Ty.compatible want' got' then Check.mismatch env' t what' want' got'
        else Pure.pure ()) :=
  .ite (steps.unfit_iff wanted found) (steps.mismatch place same wanted found) (.pure trivial)

end Steps

end TreeCheck.Check
