import Stencil.Config

/-! What an accepted configuration is like. A check accepts a value where it finds no issues, and so
do the checks it is made of.
-/

namespace Stencil.Config

namespace Checked

variable {α β : Type} {checked : Checked α} {value : α}

/-- A check has found a value and no issues. -/
structure Accepts (checked : Checked α) (value : α) : Prop where
  noIssues : checked.issues = []
  hasValue : checked.value? = some value

theorem accepts_of_result (h : checked.result = .ok value) : checked.Accepts value := by
  rw [result] at h
  split at h
  · rename_i noIssues hasValue
    cases h
    exact ⟨noIssues, hasValue⟩
  · cases h

theorem Accepts.of_map {f : α → β} {result : β} (h : (f <$> checked).Accepts result)
    : ∃ value, checked.Accepts value ∧ f value = result := by
  obtain ⟨value, hasValue, eq⟩ := Option.map_eq_some_iff.1 h.hasValue
  exact ⟨value, ⟨h.noIssues, hasValue⟩, eq⟩

theorem Accepts.of_seq {functions : Checked (α → β)} {result : β}
    (h : (functions <*> checked).Accepts result)
    : ∃ f value, functions.Accepts f ∧ checked.Accepts value ∧ f value = result := by
  obtain ⟨noIssues, hasValue⟩ := h
  obtain ⟨first, second⟩ := List.append_eq_nil_iff.1 noIssues
  obtain ⟨f, isFunction, hasValue⟩ := Option.bind_eq_some_iff.1 hasValue
  obtain ⟨value, isValue, eq⟩ := Option.map_eq_some_iff.1 hasValue
  exact ⟨f, value, ⟨first, isFunction⟩, ⟨second, isValue⟩, eq⟩

theorem Accepts.of_under {key : String} (h : (checked.under key).Accepts value)
    : checked.Accepts value :=
  ⟨List.map_eq_nil_iff.1 h.noIssues, h.hasValue⟩

theorem not_accepts_refusedFor {faults : List Fault} : ¬ (refusedFor faults).Accepts value := by
  rintro ⟨_, hasValue⟩
  cases hasValue

theorem accepts_flawed {found : α} {faults : List Fault} (h : (flawed found faults).Accepts value)
    : faults = [] ∧ found = value :=
  ⟨List.map_eq_nil_iff.1 h.noIssues, Option.some.inj h.hasValue⟩

end Checked

/-- The suffix of an accepted configuration is a dot with a word. -/
theorem isSuffix_of_checkNaming {data : Plain} {naming : Naming}
    (h : (checkNaming data).Accepts naming)
    : isSuffix naming.suffix = true := by
  rw [checkNaming, checkObject] at h
  split at h
  · obtain ⟨_, _, named, _, rfl⟩ := h.of_seq
    obtain ⟨suffix, accepted, rfl⟩ := named.of_map
    have accepted := accepted.of_under
    change isSuffix suffix = true
    unfold orDefault at accepted
    split at accepted
    · cases accepted.hasValue
      decide
    · unfold checkSuffix at accepted
      split at accepted
      · obtain ⟨faultless, rfl⟩ := Checked.accepts_flawed accepted
        split at faultless
        · assumption
        · cases faultless
      · exact absurd accepted Checked.not_accepts_refusedFor
  · exact absurd h Checked.not_accepts_refusedFor

theorem isSuffix_of_ofPlain {data : Plain} {config : Config} (h : ofPlain data = .ok config)
    : isSuffix config.naming.suffix = true := by
  have accepted := Checked.accepts_of_result h
  rw [check, checkObject] at accepted
  split at accepted
  · obtain ⟨_, _, rest, _, rfl⟩ := accepted.of_seq
    obtain ⟨_, naming, first, named, rfl⟩ := rest.of_seq
    obtain ⟨_, _, rfl⟩ := first.of_map
    have named := named.of_under
    unfold orEmpty at named
    split at named <;> exact isSuffix_of_checkNaming named
  · exact absurd accepted Checked.not_accepts_refusedFor

end Stencil.Config
