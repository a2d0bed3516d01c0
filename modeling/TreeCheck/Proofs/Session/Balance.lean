import TreeCheck.Invariant
import TreeCheck.Proofs.Session.Said

/-!
Checks leave the scopes as they found them. Every scope that a check opens it closes again, on
every way through a tree, so a check ends with the stack it began with; and a check of a file is
never aborted.
-/

namespace TreeCheck.Session

/-- What was said about a file never is that a scope was closed that was not open. -/
theorem Said.code_ne {d : Diagnostic} (said : Said d) : d.code ≠ .scopeUnderflow := by
  rcases said with objection | genuine
  · intro same
    rcases objection.2 with code | code
    · exact absurd (code.symm.trans same) (by decide)
    · exact absurd (code.symm.trans same) (by decide)
  · exact genuine.code_ne

/-- On every context that arose by operations from the fresh one, and whatever warnings are wanted,
the check of a complete tree comes to its end with the open scopes and the depth that it found, and
at depth zero with a context that shows no fault. All trees that are read are complete; so a check
of a file by the standard pass is never aborted and never tells of a scope that was not open. -/
theorem checks_leave_scopes_balanced :
    (∀ (ops : List Context.Op) (env : Check.Env) (t : Tree), t.Complete →
      ∃ s, (Check.tree env t).run (.start (Context.fresh.run ops)) = .ok () s ∧
        s.ctx.active = (Context.fresh.run ops).active ∧
        s.ctx.depth = (Context.fresh.run ops).depth ∧
        ((Context.fresh.run ops).depth = 0 → s.ctx.fault? = none)) ∧
    (∀ (f : SourceFile) (names : Interner), (Load.ofFile f names).tree.Complete) ∧
    (∀ (o : Options) (disk : Disk) (s after : Shared) (path : Text) (result : Result),
      o.pass = Check.tree → checkFile o disk s path = .ok (result, after) →
        result.aborted = none ∧ ∀ d ∈ result.bag.items.toList, d.code ≠ .scopeUnderflow) := by
  refine ⟨fun ops env t complete => ?_, fun f names => (Load.ofFile_complete f names).1, ?_⟩
  · obtain ⟨s, ends, run⟩ := Check.tree_ends env complete (.start (Context.fresh.run ops))
    have kept : (Context.fresh.run ops).Local s.ctx := run.trail.isLocal
    have sound : s.ctx.Sound := run.trail.sound (Context.sound_run_fresh ops)
    refine ⟨s, ends, kept.active_eq, kept.depth_eq, fun closed => ?_⟩
    exact sound.fault?_eq_none (kept.depth_eq.trans closed)
  · intro o disk s after path result standard checked
    obtain ⟨_, bytes, _, rfl, _⟩ := checkFile_ok checked
    obtain ⟨unaborted, w, bag⟩ := checkSource_said standard (sourceAt s path bytes) s.names
    refine ⟨unaborted, fun d member => ?_⟩
    rw [bag] at member
    rcases mem_finishBag.mp member with found | ⟨_, rfl⟩
    · exact (said_of_mem (Bag.mem_within (Bag.mem_of_mem_distinct found))).code_ne
    · have coded : (timingEntry (sourceAt s path bytes).id w).code = .timings := rfl
      rw [coded]
      decide

end TreeCheck.Session
