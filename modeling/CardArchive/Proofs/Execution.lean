import CardArchive.Run.Report

/-!
# Running from any state

`Run.start` begins a run with no reports made. A part of a run begins in the middle, so what a part
does is stated about `Run.exec`, which begins in any state. Each primitive of a run has one equation
here; a part of a run is taken apart by `Run.exec_bind` and put together from these equations.
-/

namespace CardArchive

namespace Run

variable {ε α β : Type}

/-- Runs from a state: the outcome and the state that is left. -/
def exec (r : Run ε α) (s : RunState) : Except ε α × RunState := (r.run).run s

/-- A run starts without any reports. -/
theorem start_eq_exec (r : Run ε α) (f : Files) : r.start f = r.exec ⟨f, []⟩ := rfl

@[simp] theorem exec_pure (a : α) (s : RunState) : (pure a : Run ε α).exec s = (.ok a, s) := rfl

@[simp] theorem exec_throw (e : ε) (s : RunState) :
    (throw e : Run ε α).exec s = (.error e, s) := rfl

/-- What comes after a part that fails is left out. -/
theorem exec_bind (r : Run ε α) (k : α → Run ε β) (s : RunState) :
    (r >>= k).exec s = match r.exec s with
      | (.ok a, s') => (k a).exec s'
      | (.error e, s') => (.error e, s') := by
  have h : (r >>= k).exec s = (ExceptT.bindCont k (r.exec s).1).run (r.exec s).2 := rfl
  rw [h]
  rcases r.exec s with ⟨_ | _, _⟩ <;> rfl

/-- The rest goes on from the state that is left. -/
theorem exec_bind_ok {r : Run ε α} {k : α → Run ε β} {s s' : RunState} {a : α}
    (h : r.exec s = (.ok a, s')) : (r >>= k).exec s = (k a).exec s' := by
  rw [exec_bind, h]

/-- What was done before a failure stays done. -/
theorem exec_bind_error {r : Run ε α} {k : α → Run ε β} {s s' : RunState} {e : ε}
    (h : r.exec s = (.error e, s')) : (r >>= k).exec s = (.error e, s') := by
  rw [exec_bind, h]

@[simp] theorem exec_files (s : RunState) : (files : Run ε Files).exec s = (.ok s.files, s) := rfl

@[simp] theorem exec_setFiles (f : Files) (s : RunState) :
    (setFiles f : Run ε Unit).exec s = (.ok (), { s with files := f }) := rfl

@[simp] theorem exec_report (r : Report) (s : RunState) :
    (report r : Run ε Unit).exec s = (.ok (), s.report r) := rfl

@[simp] theorem exec_reportAll (rs : List Report) (s : RunState) :
    (reportAll rs : Run ε Unit).exec s = (.ok (), rs.foldl RunState.report s) := rfl

@[simp] theorem exec_orFail_ok {δ : Type} (wrap : δ → ε) (a : α) (s : RunState) :
    (orFail wrap (.ok a)).exec s = (.ok a, s) := rfl

@[simp] theorem exec_orFail_error {δ : Type} (wrap : δ → ε) (e : δ) (s : RunState) :
    (orFail wrap (.error e) : Run ε α).exec s = (.error (wrap e), s) := rfl

end Run

namespace RunState

@[simp] theorem files_report (s : RunState) (r : Report) : (s.report r).files = s.files := rfl

/-- Reports leave the files alone. -/
@[simp] theorem files_foldl_report (rs : List Report) (s : RunState) :
    (rs.foldl report s).files = s.files := by
  induction rs generalizing s with
  | nil => rfl
  | cons r rest ih => exact (ih (s.report r)).trans (files_report s r)

end RunState

/-! ## Reports have no influence -/

namespace Run

variable {ε α β : Type}

/-- What a run does depends on the files, not on the reports that were made before. -/
def Blind (r : Run ε α) : Prop :=
  ∀ s t : RunState, s.files = t.files →
    (r.exec s).1 = (r.exec t).1 ∧ (r.exec s).2.files = (r.exec t).2.files

namespace Blind

/-- From another state with the same files, a run does the same. -/
theorem transfer {r : Run ε α} (hr : r.Blind) {s s' t : RunState} {out : Except ε α}
    (hrun : r.exec s = (out, s')) (hfiles : t.files = s.files) :
    ∃ t', r.exec t = (out, t') ∧ t'.files = s'.files := by
  obtain ⟨hout, hlast⟩ := hr t s hfiles
  rw [hrun] at hout hlast
  exact ⟨(r.exec t).2, Prod.ext hout rfl, hlast⟩

/-- What a run does in a state is what it does when it begins with the files of that state. -/
theorem start_of_exec {r : Run ε α} (hr : r.Blind) {s s' : RunState} {out : Except ε α}
    (hrun : r.exec s = (out, s')) :
    ∃ t, r.start s.files = (out, t) ∧ t.files = s'.files :=
  hr.transfer hrun rfl

theorem pure (a : α) : Blind (Pure.pure a : Run ε α) := fun _ _ h => ⟨rfl, h⟩

theorem throw (e : ε) : Blind (MonadExcept.throw e : Run ε α) := fun _ _ h => ⟨rfl, h⟩

/-- Parts that are blind make a blind run, so it is enough to look at the parts. -/
theorem bind {r : Run ε α} {k : α → Run ε β} (hr : r.Blind) (hk : ∀ a, (k a).Blind) :
    (r >>= k).Blind := by
  intro s t h
  obtain ⟨hout, hfiles⟩ := hr s t h
  rw [exec_bind, exec_bind]
  rcases hs : r.exec s with ⟨a | a, s'⟩ <;> rcases ht : r.exec t with ⟨b | b, t'⟩ <;>
    rw [hs, ht] at hout hfiles <;> cases hout
  · exact ⟨rfl, hfiles⟩
  · exact hk a s' t' hfiles

/-- A report is added to those before, and none is looked at. -/
theorem report (r : Report) : Blind (Run.report r : Run ε Unit) := fun _ _ h => ⟨rfl, h⟩

theorem reportAll (rs : List Report) : Blind (Run.reportAll rs : Run ε Unit) := by
  intro s t h
  simp [h]

theorem files : Blind (Run.files : Run ε Files) := fun _ _ h => ⟨congrArg Except.ok h, h⟩

theorem setFiles (f : Files) : Blind (Run.setFiles f : Run ε Unit) := fun _ _ _ => ⟨rfl, rfl⟩

theorem orFail {δ : Type} (wrap : δ → ε) (x : Except δ α) : Blind (Run.orFail wrap x) := by
  cases x with
  | ok a => exact pure a
  | error e => exact throw (wrap e)

end Blind

end Run

end CardArchive
