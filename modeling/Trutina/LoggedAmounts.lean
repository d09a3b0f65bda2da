/-
This file says when amounts stay out of the log. Redaction looks for monetary
keys only among the entries of the context. A monetary key of the event itself
is kept, and so is one further down, in the context or under any other key,
unless it lies under a secret key or in an entry that is dropped.
-/

import Trutina.LogRedaction

namespace Trutina

section Amounts

variable {Object : Type} {python : Interpreter Object}

/-- A monetary key occurs in the value. -/
def ShowsAmount (secret : String → Bool) (value : Value Object) : Prop :=
  value.ShowsKey secret (· ∈ monetaryKeys)

/-- A monetary key lies where redaction does not look for one, and not under a secret key. -/
inductive ExposesAmount (python : Interpreter Object) : String × Value Object → Prop where
  /-- It is the key of the entry itself. -/
  | own {key : String} (monetary : key ∈ monetaryKeys) (value : Value Object) :
      ExposesAmount python (key, value)
  /-- It lies in an entry whose key is not reserved. -/
  | free {key : String} {value : Value Object} (apart : key ∉ reservedKeys)
      (shown : isSecretName python key = false) (inner : ShowsAmount (isSecretName python) value) :
      ExposesAmount python (key, value)
  /-- It lies in an entry whose key is reserved, and that is left alone. -/
  | reserved {key : String} {value : Value Object} (own : key ∈ reservedKeys)
      (plain : key ≠ "context") (inner : ShowsAmount (fun _ => false) value) :
      ExposesAmount python (key, value)
  /-- It lies in a context that is no dict, and that is left alone. -/
  | plain {value : Value Object} (other : ∀ entries, value ≠ .dict entries)
      (inner : ShowsAmount (fun _ => false) value) : ExposesAmount python ("context", value)
  /-- It lies further down in an entry of the context. -/
  | context {entries : List (String × Value Object)} {entry : String × Value Object}
      (member : entry ∈ entries) (kept : entry.1 ∉ monetaryKeys)
      (shown : isSecretName python entry.1 = false)
      (inner : ShowsAmount (isSecretName python) entry.2) :
      ExposesAmount python ("context", .dict entries)

/-- An entry with a scalar can only have a monetary key itself. -/
theorem not_exposesAmount_leaf {key : String} (kept : key ∉ monetaryKeys)
    (scalar : Scalar Object) : ¬ExposesAmount python (key, .leaf scalar) := by
  intro exposes
  cases exposes with
  | own monetary => exact kept monetary
  | free apart shown inner => exact KeyedTree.not_showsKey_leaf _ inner
  | reserved own plain inner => exact KeyedTree.not_showsKey_leaf _ inner
  | plain other inner => exact KeyedTree.not_showsKey_leaf _ inner

/-- A value under a free key shows the monetary keys that are not under a secret one. -/
theorem redactValue_showsAmount (key : String) (value : Value Object) :
    ShowsAmount (fun _ => false) (redactValue python key value) ↔
      isSecretName python key = false ∧ ShowsAmount (isSecretName python) value := by
  cases hidden : isSecretName python key with
  | true =>
    rw [redactValue_of_secret hidden]
    exact iff_of_false (KeyedTree.not_showsKey_leaf _) fun both => Bool.noConfusion both.1
  | false =>
    rw [redactValue_eq_masked hidden, ShowsAmount, KeyedTree.showsKey_masked]
    exact (and_iff_right rfl).symm

/-- Of a context the entries with monetary keys are dropped. -/
theorem redactContext_showsAmount (entries : List (String × Value Object)) :
    ShowsAmount (fun _ => false) (redactContext python false (.dict entries)) ↔
      ∃ entry ∈ entries, entry.1 ∉ monetaryKeys ∧ isSecretName python entry.1 = false ∧
        ShowsAmount (isSecretName python) entry.2 := by
  rw [redactContext_dict, ShowsAmount, KeyedTree.showsKey_masked, KeyedTree.showsKey_dict]
  refine exists_congr fun entry => ?_
  rw [keptEntries, List.mem_filter, Bool.false_or, Bool.not_eq_true', List.contains_eq_mem,
    decide_eq_false_iff_not, and_assoc]
  refine and_congr_right fun _ => and_congr_right fun kept => ?_
  rw [or_iff_right kept, ShowsAmount]

/-- What becomes of an entry has a monetary key just when the entry exposes one. -/
theorem redactEntry_showsAmount (entry : String × Value Object) :
    ((redactEntry python false entry).1 ∈ monetaryKeys ∨
        ShowsAmount (fun _ => false) (redactEntry python false entry).2) ↔
      ExposesAmount python entry := by
  obtain ⟨key, value⟩ := entry
  rw [redactEntry_key, redactEntry]
  constructor
  · rintro (monetary | inner)
    · exact .own monetary value
    · split at inner
      · rename_i context
        obtain rfl : key = "context" := context
        cases value with
        | dict entries =>
          obtain ⟨entry, member, kept, shown, deeper⟩ :=
            (redactContext_showsAmount entries).mp inner
          exact .context member kept shown deeper
        | _ => exact .plain (by rintro entries ⟨⟩) inner
      · rename_i plain
        split at inner
        · rename_i own
          exact .reserved own plain inner
        · rename_i apart
          obtain ⟨shown, deeper⟩ := (redactValue_showsAmount key value).mp inner
          exact .free apart shown deeper
  · intro exposes
    cases exposes with
    | own monetary => exact .inl monetary
    | free apart shown inner =>
      have plain : key ≠ "context" := fun same => apart (same ▸ by decide)
      rw [if_neg plain, if_neg apart]
      exact .inr ((redactValue_showsAmount key value).mpr ⟨shown, inner⟩)
    | reserved own plain inner =>
      rw [if_neg plain, if_pos own]
      exact .inr inner
    | plain other inner =>
      rw [if_pos rfl]
      cases value with
      | dict entries => exact absurd rfl (other entries)
      | _ => exact .inr inner
    | context member kept shown inner =>
      rw [if_pos rfl]
      exact .inr ((redactContext_showsAmount _).mpr ⟨_, member, kept, shown, inner⟩)

/-- What is left of an event shows an amount just when one of its entries exposes one. -/
theorem redactSensitive_showsAmount {events : EventDict Object}
    (level : isDebug (levelOf events) = false) :
    ShowsAmount (fun _ => false) (.dict (redactSensitive python events)) ↔
      ∃ entry ∈ events, ExposesAmount python entry := by
  rw [redactSensitive, level, ShowsAmount, KeyedTree.showsKey_dict]
  simp only [List.mem_map, exists_exists_and_eq_and, true_and]
  exact exists_congr fun entry => and_congr_right fun _ => redactEntry_showsAmount entry

/-- Above the debug level no monetary key is left in an event, at any depth, just when no entry of
the event exposes one. -/
theorem redactSensitive_hides_amounts_iff (python : Interpreter Object)
    (events : EventDict Object) (level : isDebug (levelOf events) = false) :
    ¬ShowsAmount (fun _ => false) (.dict (redactSensitive python events)) ↔
      ∀ entry ∈ events, ¬ExposesAmount python entry := by
  rw [redactSensitive_showsAmount level]
  push Not
  rfl

end Amounts

/-- A journal that was created, with an amount in its context and further down in a line of it. -/
def journalEvent (field : String) : EventDict Empty :=
  [("event", .leaf (.str "journal.created")), ("level", .leaf (.str "info")),
    ("context", .dict [("balance", .leaf (.str "12.50")),
      ("line", .dict [(field, .leaf (.str "12.50"))])])]

/-- Without a monetary key in the line none is left. -/
theorem redactSensitive_hides_amounts_of_journal :
    ¬ShowsAmount (fun _ => false)
      (.dict (redactSensitive plainPython (journalEvent "account"))) := by
  refine (redactSensitive_hides_amounts_iff plainPython (journalEvent "account") rfl).mpr ?_
  refine List.forall_mem_cons.mpr ⟨not_exposesAmount_leaf (by decide) _,
    List.forall_mem_cons.mpr ⟨not_exposesAmount_leaf (by decide) _,
      List.forall_mem_singleton.mpr fun exposes => ?_⟩⟩
  cases exposes with
  | own monetary => exact absurd monetary (by decide)
  | free apart => exact apart (by decide)
  | reserved own plain => exact plain rfl
  | plain other => exact other _ rfl
  | context member kept shown inner =>
    rcases List.mem_pair.mp member with rfl | rfl
    · exact kept (by decide)
    · obtain ⟨entry, listed, monetary | ⟨_, deeper⟩⟩ := KeyedTree.showsKey_dict.mp inner
      · obtain rfl := List.mem_singleton.mp listed
        exact absurd monetary (by decide)
      · obtain rfl := List.mem_singleton.mp listed
        exact KeyedTree.not_showsKey_leaf _ deeper

/-- The debit of a line stays in a journal that is logged at the info level, and so does an amount
that is a field of the event itself. -/
theorem redactSensitive_shows_amount :
    ShowsAmount (fun _ => false)
        (.dict (redactSensitive plainPython (journalEvent "debit_amount"))) ∧
      ShowsAmount (fun _ => false)
        (.dict (redactSensitive plainPython [("amount", .leaf (.str "12.50"))])) := by
  have secret : isSecretName plainPython "line" = false := by decide +kernel
  constructor
  · refine (redactSensitive_showsAmount rfl).mpr ⟨("context", _),
      List.mem_cons_of_mem _ (List.mem_cons_of_mem _ List.mem_cons_self), ?_⟩
    exact .context (List.mem_cons_of_mem _ List.mem_cons_self) (by decide) secret
      (.own List.mem_cons_self (by decide))
  · exact (redactSensitive_showsAmount rfl).mpr ⟨_, List.mem_cons_self, .own (by decide) _⟩

end Trutina
