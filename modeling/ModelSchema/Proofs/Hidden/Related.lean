/-
Two runs side by side. Two steps are related if from every progress both
fail for the same cause, or both succeed with related results; in either
case both have told and declared the same. Steps made of related parts are
related (`Related.bind`, `Related.mapM`).
-/
import ModelSchema.Proofs.Run

namespace ModelSchema

variable {α α' β β' : Type}

-- ============================================================= outcomes

/-- Two outcomes are alike: the same cause of failure, or related
results. -/
inductive Alike (R : α → α' → Prop) : Except Fault α → Except Fault α' → Prop
  | error (f : Fault) : Alike R (.error f) (.error f)
  | ok {a : α} {a' : α'} (h : R a a') : Alike R (.ok a) (.ok a')

namespace Alike

variable {R : α → α' → Prop} {x : Except Fault α} {x' : Except Fault α'}

/-- An outcome is like itself, as far as its result is related to
itself. -/
theorem same {R : α → α → Prop} {x : Except Fault α} (h : ∀ a, x = .ok a → R a a) :
    Alike R x x := by
  cases x with
  | error f => exact error f
  | ok a => exact ok (h a rfl)

theorem imp {S : α → α' → Prop} (himp : ∀ a a', R a a' → S a a') (h : Alike R x x') :
    Alike S x x' := by
  cases h with
  | error f => exact error f
  | ok h => exact ok (himp _ _ h)

/-- What follows one and the same outcome is alike if it is so wherever
there is a result. -/
theorem after {x : Except Fault β} {f : β → Except Fault α} {f' : β → Except Fault α'}
    (h : ∀ b, x = .ok b → Alike R (f b) (f' b)) : Alike R (x >>= f) (x >>= f') := by
  cases x with
  | error e => exact error e
  | ok b => exact h b rfl

end Alike

-- ================================================================ steps

namespace Work

/-- Two steps are related: from the same progress their outcomes are alike,
and they leave the same progress. -/
def Related (R : α → α' → Prop) (w : Work α) (w' : Work α') : Prop :=
  ∀ p, Alike R (w.run.run p).1 (w'.run.run p).1 ∧ (w.run.run p).2 = (w'.run.run p).2

namespace Related

variable {R : α → α' → Prop} {S : β → β' → Prop} {w : Work α} {w' : Work α'}

theorem pure {a : α} {a' : α'} (h : R a a') :
    (Pure.pure a : Work α).Related R (Pure.pure a') := fun _ => ⟨Alike.ok h, rfl⟩

theorem lift {x : Except Fault α} {x' : Except Fault α'} (h : Alike R x x') :
    (Work.lift x).Related R (Work.lift x') := by
  intro p
  cases h with
  | error f => exact ⟨Alike.error f, rfl⟩
  | ok h => exact ⟨Alike.ok h, rfl⟩

theorem imp {R' : α → α' → Prop} (himp : ∀ a a', R a a' → R' a a') (h : w.Related R w') :
    w.Related R' w' := fun p => ⟨(h p).1.imp himp, (h p).2⟩

/-- A step is related to itself. -/
theorem refl (w : Work α) : w.Related Eq w :=
  fun _ => ⟨Alike.same fun _ _ => rfl, rfl⟩

/-- Steps followed by others are related if the others are, wherever runs
of the first can lead. -/
theorem bind (h : w.Related R w') {f : α → Work β} {f' : α' → Work β'}
    (hf : ∀ p a a' q, w.Yields p a q → w'.Yields p a' q → R a a' → (f a).Related S (f' a')) :
    (w >>= f).Related S (w' >>= f') := by
  intro p
  rw [run_bind, run_bind]
  obtain ⟨hresult, hprogress⟩ := h p
  rcases hrun : w.run.run p with ⟨x, q⟩
  rcases hrun' : w'.run.run p with ⟨x', q'⟩
  rw [hrun, hrun'] at hresult hprogress
  obtain rfl : q = q' := hprogress
  cases hresult with
  | error e => exact ⟨Alike.error e, rfl⟩
  | ok h => exact hf p _ _ q hrun hrun' h q

/-- Related steps after one and the same step are related. -/
theorem after (w : Work α) {f : α → Work β} {f' : α → Work β'}
    (hf : ∀ p a q, w.Yields p a q → (f a).Related S (f' a)) :
    (w >>= f).Related S (w >>= f') :=
  (refl w).bind fun p a _ q hrun _ ha => ha ▸ hf p a q hrun

/-- Related steps for the elements of two lists are related. -/
theorem mapM {f : α → Work β} {f' : α' → Work β'} {as : List α} {as' : List α'}
    (h : List.Forall₂ (fun a a' => (f a).Related S (f' a')) as as') :
    (as.mapM f).Related (List.Forall₂ S) (as'.mapM f') := by
  induction h with
  | nil => exact pure List.Forall₂.nil
  | cons hhead _ ih =>
      rw [List.mapM_cons, List.mapM_cons]
      refine hhead.bind fun _ b b' _ _ _ hb => ?_
      refine ih.bind fun _ bs bs' _ _ _ hbs => ?_
      exact pure (List.Forall₂.cons hb hbs)

/-- A run that succeeds has a related one. -/
theorem yields (h : w.Related R w') {p q : Progress} {a : α} (hrun : w.Yields p a q) :
    ∃ a', w'.Yields p a' q ∧ R a a' := by
  unfold Yields at hrun ⊢
  obtain ⟨hresult, hprogress⟩ := h p
  rcases hrun' : w'.run.run p with ⟨x', q'⟩
  rw [hrun, hrun'] at hresult hprogress
  obtain rfl : q = q' := hprogress
  cases hresult with
  | ok h => exact ⟨_, rfl, h⟩

end Related

end Work

end ModelSchema
