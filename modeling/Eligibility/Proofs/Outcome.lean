/-!
# Outcomes that are results

A staged computation gives a result only if every stage of it does, and one that goes
through a list only if it does at each place. These lemmas take such an outcome apart.
-/

namespace Except

variable {ε ε' α β : Type}

theorem map_eq_ok_iff {f : α → β} {outcome : Except ε α} {b : β} :
    outcome.map f = .ok b ↔ ∃ a, outcome = .ok a ∧ f a = b := by
  cases outcome with
  | error e => simp [Except.map]
  | ok a => simp [Except.map]

theorem map_eq_error_iff {f : α → β} {outcome : Except ε α} {e : ε} :
    outcome.map f = .error e ↔ outcome = .error e := by
  cases outcome with
  | error e => simp [Except.map]
  | ok a => simp [Except.map]

theorem mapError_eq_ok_iff {f : ε → ε'} {outcome : Except ε α} {a : α} :
    outcome.mapError f = .ok a ↔ outcome = .ok a := by
  constructor
  · intro h
    cases outcome with
    | error e => cases h
    | ok a' =>
        cases h
        rfl
  · rintro rfl
    rfl

theorem bind_eq_ok_iff {f : α → Except ε β} {outcome : Except ε α} {b : β} :
    (outcome >>= f) = .ok b ↔ ∃ a, outcome = .ok a ∧ f a = .ok b := by
  cases outcome with
  | error e => simp [bind, Except.bind]
  | ok a => simp [bind, Except.bind]

/-- A list gives results exactly if each place of it gives the one there. -/
theorem mapM_eq_ok_iff {f : α → Except ε β} {as : List α} {bs : List β} :
    as.mapM f = .ok bs ↔ as.map f = bs.map .ok := by
  induction as generalizing bs with
  | nil => cases bs <;> simp [pure, Except.pure]
  | cons a as ih =>
      rw [List.mapM_cons, bind_eq_ok_iff, List.map_cons, eq_comm, List.map_eq_cons_iff]
      constructor
      · rintro ⟨b, hb, hbs⟩
        obtain ⟨bs, has, ⟨⟩⟩ := bind_eq_ok_iff.1 hbs
        exact ⟨b, bs, rfl, hb.symm, (ih.1 has).symm⟩
      · rintro ⟨b, bs, rfl, hb, hbs⟩
        exact ⟨b, hb.symm, bind_eq_ok_iff.2 ⟨bs, ih.2 hbs.symm, rfl⟩⟩

theorem exists_mapM_eq_ok_iff {f : α → Except ε β} {as : List α} :
    (∃ bs, as.mapM f = .ok bs) ↔ ∀ a ∈ as, ∃ b, f a = .ok b := by
  induction as with
  | nil => simp [pure, Except.pure]
  | cons a as ih =>
      rw [List.forall_mem_cons, ← ih]
      constructor
      · rintro ⟨bs, h⟩
        rw [List.mapM_cons] at h
        obtain ⟨b, hb, h⟩ := bind_eq_ok_iff.1 h
        obtain ⟨bs, has, -⟩ := bind_eq_ok_iff.1 h
        exact ⟨⟨b, hb⟩, bs, has⟩
      · rintro ⟨⟨b, hb⟩, bs, has⟩
        refine ⟨b :: bs, ?_⟩
        rw [List.mapM_cons, hb, has]
        rfl

/-- The error at the first place that has one is the error of the list. -/
theorem mapM_eq_error {f : α → Except ε β} {before : List α} {a : α} {e : ε}
    (earlier : ∀ a' ∈ before, ∃ b, f a' = .ok b) (h : f a = .error e) (after : List α) :
    (before ++ a :: after).mapM f = .error e := by
  obtain ⟨bs, hbefore⟩ := exists_mapM_eq_ok_iff.2 earlier
  rw [List.mapM_append, hbefore, List.mapM_cons, h]
  rfl

end Except
