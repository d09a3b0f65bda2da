/-
This file models the redaction of log events. Reserved keys are left alone but
for the context, whose monetary keys are dropped above the debug level. Every
other value is masked under credential-shaped keys, at any depth, and loses the
credentials of the addresses in it. So events that differ only in credentials are
logged alike, and every scalar that is no credential and is not dropped is kept.
-/

import Trutina.Secret

namespace Trutina

/-! ### Addresses with credentials -/

/-- What stands before and after the first occurrence of a separator. -/
def partition? (separator : List Char) : List Char → Option (List Char × List Char)
  | [] => if separator = [] then some ([], []) else none
  | first :: rest =>
    if separator <+: first :: rest then some ([], (first :: rest).drop separator.length)
    else (partition? separator rest).map fun parts => (first :: parts.1, parts.2)

/-- The host is kept, what stands before it is masked. -/
def maskUriCredentials (value : String) : String :=
  match partition? "://".toList value.toList with
  | none => value
  | some (scheme, rest) =>
    match partition? "@".toList rest with
    | none => value
    | some (_, hostAndPath) =>
      String.ofList scheme ++ "://***:***@" ++ String.ofList hostAndPath

/-- An `@` follows a `://`. -/
def CarriesCredentials (value : String) : Prop :=
  ∃ before after, value.toList = before ++ "://".toList ++ after ∧ '@' ∈ after

theorem partition?_eq_some {separator text before after : List Char}
    (parts : partition? separator text = some (before, after)) :
    text = before ++ separator ++ after := by
  induction text generalizing before with
  | nil =>
    rw [partition?] at parts
    split at parts
    · rename_i empty
      cases parts
      rw [empty]
      rfl
    · cases parts
  | cons first rest inductionHypothesis =>
    rw [partition?] at parts
    split at parts
    · rename_i starts
      cases parts
      exact (List.prefix_iff_eq_append.mp starts).symm
    · obtain ⟨⟨head, tail⟩, found, same⟩ := Option.map_eq_some_iff.mp parts
      cases same
      rw [inductionHypothesis found]
      rfl

/-- A text without `://` is left as it is. -/
theorem maskUriCredentials_of_not_contains {value : String}
    (without : containsText "://" value = false) : maskUriCredentials value = value := by
  rw [maskUriCredentials]
  cases parts : partition? "://".toList value.toList with
  | none => rfl
  | some pair =>
    refine absurd ?_ (of_decide_eq_false without)
    rw [partition?_eq_some parts]
    exact List.infix_append _ _ _

/-- A text without credentials is left as it is. -/
theorem maskUriCredentials_of_not_carries {value : String} (without : ¬CarriesCredentials value) :
    maskUriCredentials value = value := by
  rw [maskUriCredentials]
  cases parts : partition? "://".toList value.toList with
  | none => rfl
  | some pair =>
    obtain ⟨scheme, rest⟩ := pair
    cases credentials : partition? "@".toList rest with
    | none => simp only [credentials]
    | some inner =>
      refine absurd ⟨scheme, rest, partition?_eq_some parts, ?_⟩ without
      rw [partition?_eq_some credentials]
      simp

/-! ### Processors -/

def fullRedactMarkers : List String :=
  ["password", "secret", "token", "authorization", "credential", "api_key"]

def uriLikeMarkers : List String := ["uri", "dsn"]

def monetaryKeys : List String :=
  ["amount", "debit_amount", "credit_amount", "debit_total", "credit_total", "balance"]

def reservedKeys : List String :=
  ["event", "level", "logger", "timestamp", "app", "correlation_id", "error_code", "context",
    "exception"]

/-- An event dict. Assigning to a key that is there keeps its place. -/
abbrev EventDict (Object : Type) := List (String × Value Object)

section Processors

variable {Object : Type} (python : Interpreter Object)

def matchesAny (key : String) (markers : List String) : Bool :=
  markers.any fun marker => containsText marker (python.lower key)

mutual

def redactValue (key : String) (value : Value Object) : Value Object :=
  if matchesAny python key fullRedactMarkers then .leaf (.str redacted)
  else
    match value with
    | .dict entries => .dict (redactValues entries)
    | .list items => .list (redactAll key items)
    | .tuple items => .list (redactAll key items)
    | .leaf (.str text) =>
      if matchesAny python key uriLikeMarkers || containsText "://" text then
        .leaf (.str (maskUriCredentials text))
      else .leaf (.str text)
    | .leaf scalar => .leaf scalar

/-- The items of a list are checked under its own key. -/
def redactAll (key : String) : List (Value Object) → List (Value Object)
  | [] => []
  | item :: rest => redactValue key item :: redactAll key rest

def redactValues : List (String × Value Object) → List (String × Value Object)
  | [] => []
  | (key, value) :: rest => (key, redactValue key value) :: redactValues rest

end

/-- The level of an event, `info` if it has none. -/
def levelOf (events : EventDict Object) : Value Object :=
  ((events.find? fun entry => entry.1 == "level").map Prod.snd).getD (.leaf (.str "info"))

def isDebug : Value Object → Bool
  | .leaf (.str text) => text == "debug"
  | _ => false

/-- The context without its monetary keys, unless the level is debug. -/
def redactContext (debug : Bool) : Value Object → Value Object
  | .dict entries =>
    .dict ((entries.filter fun entry => debug || !monetaryKeys.contains entry.1).map fun entry =>
      (entry.1, redactValue python entry.1 entry.2))
  | context => context

/-- What becomes of one entry of an event dict. -/
def redactEntry (debug : Bool) (entry : String × Value Object) : String × Value Object :=
  if entry.1 = "context" then (entry.1, redactContext python debug entry.2)
  else if entry.1 ∈ reservedKeys then entry
  else (entry.1, redactValue python entry.1 entry.2)

def redactSensitive (events : EventDict Object) : EventDict Object :=
  events.map (redactEntry python (isDebug (levelOf events)))

end Processors

section Redaction

variable {Object : Type} {python : Interpreter Object}

/-! ### Redaction is masking -/

/-- The two lists of markers are kept the same by hand. -/
theorem matchesAny_fullRedactMarkers (key : String) :
    matchesAny python key fullRedactMarkers = isSecretName python key := rfl

/-- A text loses the credentials in it, any other scalar stays as it is. -/
def cleanScalar : Scalar Object → Scalar Object
  | .str text => .str (maskUriCredentials text)
  | scalar => scalar

theorem redactAll_eq_map (key : String) (items : List (Value Object)) :
    redactAll python key items = items.map (redactValue python key) := by
  induction items with
  | nil => rfl
  | cons item rest inductionHypothesis => rw [redactAll, inductionHypothesis, List.map_cons]

theorem redactValues_eq_map (entries : List (String × Value Object)) :
    redactValues python entries = entries.map fun entry =>
      (entry.1, redactValue python entry.1 entry.2) := by
  induction entries with
  | nil => rfl
  | cons entry rest inductionHypothesis => rw [redactValues, inductionHypothesis, List.map_cons]

theorem redactValue_of_secret {key : String} (hidden : isSecretName python key = true)
    (value : Value Object) : redactValue python key value = .leaf (.str redacted) := by
  rw [redactValue.eq_def, matchesAny_fullRedactMarkers, if_pos hidden]

/-- Whether a key speaks of addresses makes no difference: a text without one has nothing to
lose. -/
theorem redactValue_leaf {key : String} (shown : isSecretName python key = false)
    (scalar : Scalar Object) :
    redactValue python key (.leaf scalar) = .leaf (cleanScalar scalar) := by
  rw [redactValue.eq_def, matchesAny_fullRedactMarkers, shown, if_neg Bool.false_ne_true]
  cases scalar with
  | str text =>
    simp only [cleanScalar]
    split
    · rfl
    · rename_i plain
      rw [Bool.not_eq_true, Bool.or_eq_false_iff] at plain
      rw [maskUriCredentials_of_not_contains plain.2]
  | _ => rfl

/-- An entry is masked, given that its value is if its key is not secret. -/
theorem redactValue_entry_of {entry : String × Value Object}
    (masks : isSecretName python entry.1 = false → redactValue python entry.1 entry.2 =
      entry.2.masked (isSecretName python) (.str redacted) cleanScalar) :
    (entry.1, redactValue python entry.1 entry.2) =
      KeyedTree.maskedEntry (isSecretName python) (.str redacted) cleanScalar entry := by
  rw [KeyedTree.maskedEntry]
  cases hidden : isSecretName python entry.1 with
  | true => rw [redactValue_of_secret hidden, if_pos rfl]
  | false => rw [masks hidden, if_neg Bool.false_ne_true]

/-- A value under a key that is not secret is masked, whatever the key. -/
theorem redactValue_eq_masked {key : String} (shown : isSecretName python key = false)
    (value : Value Object) :
    redactValue python key value =
      value.masked (isSecretName python) (.str redacted) cleanScalar := by
  induction value using KeyedTree.induction generalizing key with
  | leaf scalar => exact redactValue_leaf shown scalar
  | list items inductionHypothesis =>
    rw [redactValue, matchesAny_fullRedactMarkers, shown, if_neg Bool.false_ne_true,
      KeyedTree.masked, redactAll_eq_map, KeyedTree.maskedItems_eq_map,
      List.map_congr_left fun item member => inductionHypothesis item member shown]
  | tuple items inductionHypothesis =>
    rw [redactValue, matchesAny_fullRedactMarkers, shown, if_neg Bool.false_ne_true,
      KeyedTree.masked, redactAll_eq_map, KeyedTree.maskedItems_eq_map,
      List.map_congr_left fun item member => inductionHypothesis item member shown]
  | dict entries inductionHypothesis =>
    rw [redactValue, matchesAny_fullRedactMarkers, shown, if_neg Bool.false_ne_true,
      KeyedTree.masked, redactValues_eq_map, KeyedTree.maskedEntries_eq_map]
    exact congrArg KeyedTree.dict (List.map_congr_left fun entry member =>
      redactValue_entry_of (inductionHypothesis entry member))

/-- The entries of a dict are masked. -/
theorem redactValue_entry (entry : String × Value Object) :
    (entry.1, redactValue python entry.1 entry.2) =
      KeyedTree.maskedEntry (isSecretName python) (.str redacted) cleanScalar entry :=
  redactValue_entry_of fun shown => redactValue_eq_masked shown entry.2

/-- The entries of a context that are kept. -/
def keptEntries (debug : Bool) (entries : List (String × Value Object)) :
    List (String × Value Object) :=
  entries.filter fun entry => debug || !monetaryKeys.contains entry.1

/-- A context is masked without its monetary keys. -/
theorem redactContext_dict (debug : Bool) (entries : List (String × Value Object)) :
    redactContext python debug (.dict entries) =
      (KeyedTree.dict (keptEntries debug entries)).masked (isSecretName python)
        (.str redacted) cleanScalar := by
  rw [redactContext, KeyedTree.masked, KeyedTree.maskedEntries_eq_map, keptEntries]
  exact congrArg KeyedTree.dict (List.map_congr_left fun entry _ => redactValue_entry entry)

/-! ### Agreement with the redaction of inputs -/

theorem cleanScalar_of_not_contains {scalar : Scalar Object}
    (plain : ∀ text, scalar = .str text → containsText "://" text = false) :
    cleanScalar scalar = scalar := by
  cases scalar with
  | str text => rw [cleanScalar, maskUriCredentials_of_not_contains (plain text rfl)]
  | _ => rfl

/-- No text in the value contains `://`. -/
def WithoutAddresses (value : Value Object) : Prop :=
  value.AllLeaves fun scalar => ∀ text, scalar = .str text → containsText "://" text = false

/-- A value without addresses is redacted alike in an error and, under any key that is not secret,
in a log event. -/
theorem redactInput_eq_redactValue (python : Interpreter Object) (value : Value Object)
    (plain : WithoutAddresses value) (key : String) (shown : isSecretName python key = false) :
    redactInput python value = redactValue python key value := by
  rw [redactInput_eq_masked, redactValue_eq_masked shown]
  exact (plain.mono fun scalar none => (cleanScalar_of_not_contains none).symm).masked_congr

/-! ### Events that differ in credentials -/

/-- The entries have one key. Under a reserved key the values are the same, but contexts, like the
values under other keys, may differ under secret keys. -/
inductive AlikeEvent (python : Interpreter Object) :
    String × Value Object → String × Value Object → Prop where
  | reserved {key : String} (own : key ∈ reservedKeys) (value : Value Object) :
      AlikeEvent python (key, value) (key, value)
  | context {first second : List (String × Value Object)}
      (entries : List.Forall₂ (KeyedTree.AlikeEntry (isSecretName python)) first second) :
      AlikeEvent python ("context", .dict first) ("context", .dict second)
  | free {entry other : String × Value Object} (own : entry.1 ∉ reservedKeys)
      (values : KeyedTree.AlikeEntry (isSecretName python) entry other) :
      AlikeEvent python entry other

theorem AlikeEvent.key_eq {entry other : String × Value Object}
    (alike : AlikeEvent python entry other) : entry.1 = other.1 := by
  cases alike with
  | reserved own value => rfl
  | context entries => rfl
  | free own values => exact values.key_eq

/-- Under reserved keys other than the context nothing differs. -/
theorem AlikeEvent.eq_of_reserved {entry other : String × Value Object}
    (alike : AlikeEvent python entry other) (own : entry.1 ∈ reservedKeys)
    (plain : entry.1 ≠ "context") : entry = other := by
  cases alike with
  | reserved own value => rfl
  | context entries => exact absurd rfl plain
  | free apart values => exact absurd own apart

/-- Of alike contexts the same entries are kept. -/
theorem keptEntries_alike {first second : List (String × Value Object)} (debug : Bool)
    (alike : List.Forall₂ (KeyedTree.AlikeEntry (isSecretName python)) first second) :
    List.Forall₂ (KeyedTree.AlikeEntry (isSecretName python)) (keptEntries debug first)
      (keptEntries debug second) := by
  refine List.rel_filter (fun entry other same => ?_) alike
  simp only [same.key_eq]

theorem AlikeEvent.redactEntry_eq {entry other : String × Value Object}
    (alike : AlikeEvent python entry other) (debug : Bool) :
    redactEntry python debug entry = redactEntry python debug other := by
  cases alike with
  | reserved own value => rfl
  | context entries =>
    rw [redactEntry, redactEntry, if_pos rfl, if_pos rfl, redactContext_dict, redactContext_dict,
      (KeyedTree.Alike.dict (keptEntries_alike debug entries)).masked_eq]
  | free own values =>
    have plain : entry.1 ≠ "context" := fun same => own (same ▸ by decide)
    rw [redactEntry, redactEntry, ← values.key_eq, if_neg plain, if_neg plain, if_neg own,
      if_neg own, redactValue_entry, values.key_eq, redactValue_entry]
    exact values.masked_eq fun inner => inner.masked_eq

/-- Alike events have one level. -/
theorem levelOf_eq_of_alike {events others : EventDict Object}
    (alike : List.Forall₂ (AlikeEvent python) events others) : levelOf events = levelOf others := by
  unfold levelOf
  congr 2
  induction alike with
  | nil => rfl
  | @cons entry other rest others same alike inductionHypothesis =>
    rw [List.find?_cons, List.find?_cons, ← same.key_eq]
    cases level : entry.1 == "level" with
    | false => exact inductionHypothesis
    | true =>
      have own : entry.1 = "level" := eq_of_beq level
      rw [same.eq_of_reserved (own ▸ by decide) (own ▸ by decide)]

/-- Events that differ only in credentials are redacted alike. -/
theorem redactSensitive_eq_of_alike {events others : EventDict Object}
    (alike : List.Forall₂ (AlikeEvent python) events others) :
    redactSensitive python events = redactSensitive python others := by
  rw [redactSensitive, redactSensitive, levelOf_eq_of_alike alike]
  exact (alike.map_eq fun entry _ other same => (same.redactEntry_eq _).symm).symm

/-! ### What is kept -/

/-- The path leads into a context to a monetary key that is dropped. -/
def Dropped (debug : Bool) : List KeyedTree.Step → Prop
  | .key name :: .key inner :: _ => name = "context" ∧ debug = false ∧ inner ∈ monetaryKeys
  | _ => False

/-- What is found in a context on a path that is not dropped is among the kept entries. -/
theorem get?_keptEntries {debug : Bool} {entries : List (String × Value Object)} {name : String}
    {rest : List KeyedTree.Step} (kept : ¬(debug = false ∧ name ∈ monetaryKeys)) :
    (KeyedTree.dict (keptEntries debug entries)).get? (.key name :: rest) =
      (KeyedTree.dict entries).get? (.key name :: rest) := by
  have passes : (debug || !monetaryKeys.contains name) = true := by
    cases debug with
    | true => rfl
    | false => simpa using kept
  rw [KeyedTree.get?_cons, KeyedTree.get?_cons, KeyedTree.child?, KeyedTree.child?, keptEntries,
    KeyedTree.find?_key_filter (fun key => debug || !monetaryKeys.contains key) passes]

/-- A scalar on a path without secret keys is kept, if it is no address with credentials. -/
theorem masked_get?_scalar {path : List KeyedTree.Step}
    (shown : ∀ step ∈ path, step.Open (isSecretName python)) {value : Value Object}
    {scalar : Scalar Object} (plain : cleanScalar scalar = scalar)
    (found : value.get? path = some (.leaf scalar)) :
    (value.masked (isSecretName python) (.str redacted) cleanScalar).get? path =
      some (.leaf scalar) := by
  rw [KeyedTree.get?_masked shown, found, Option.map_some, KeyedTree.masked, plain]

theorem redactEntry_key (debug : Bool) (entry : String × Value Object) :
    (redactEntry python debug entry).1 = entry.1 := by
  rw [redactEntry]
  split
  · rfl
  · split <;> rfl

/-- A scalar is kept in one entry. -/
theorem redactEntry_keeps {debug : Bool} {entry : String × Value Object}
    {rest : List KeyedTree.Step} {scalar : Scalar Object}
    (shown : ∀ step ∈ KeyedTree.Step.key entry.1 :: rest, step.Open (isSecretName python))
    (plain : cleanScalar scalar = scalar) (kept : ¬Dropped debug (.key entry.1 :: rest))
    (found : entry.2.get? rest = some (.leaf scalar)) :
    (redactEntry python debug entry).2.get? rest = some (.leaf scalar) := by
  obtain ⟨key, value⟩ := entry
  obtain ⟨first, later⟩ := List.forall_mem_cons.mp shown
  rw [redactEntry]
  split
  · rename_i context
    cases value with
    | leaf inner => exact found
    | list items => exact found
    | tuple items => exact found
    | dict entries =>
      simp only [redactContext_dict]
      cases rest with
      | nil => cases found
      | cons step rest =>
        cases step with
        | index position => cases found
        | key name =>
          refine masked_get?_scalar later plain ?_
          rw [get?_keptEntries fun dropped => kept ⟨context, dropped.1, dropped.2⟩]
          exact found
  · split
    · exact found
    · simp only [redactValue_eq_masked first]
      exact masked_get?_scalar later plain found

theorem cleanScalar_of_plain {scalar : Scalar Object}
    (plain : ∀ text, scalar = .str text → ¬CarriesCredentials text) :
    cleanScalar scalar = scalar := by
  cases scalar with
  | str text => rw [cleanScalar, maskUriCredentials_of_not_carries (plain text rfl)]
  | _ => rfl

/-- Every scalar that is no credential and is not dropped is kept at its place. -/
theorem redactSensitive_keeps {events : EventDict Object} {path : List KeyedTree.Step}
    {scalar : Scalar Object} (shown : ∀ step ∈ path, step.Open (isSecretName python))
    (plain : ∀ text, scalar = .str text → ¬CarriesCredentials text)
    (kept : ¬Dropped (isDebug (levelOf events)) path)
    (found : (KeyedTree.dict events).get? path = some (.leaf scalar)) :
    (KeyedTree.dict (redactSensitive python events)).get? path = some (.leaf scalar) := by
  cases path with
  | nil => cases found
  | cons step rest =>
    cases step with
    | index position => cases found
    | key name =>
      rw [KeyedTree.get?_cons, KeyedTree.child?] at found ⊢
      rw [redactSensitive, KeyedTree.find?_key_map (redactEntry_key _)]
      cases present : events.find? fun entry => entry.1 == name with
      | none =>
        rw [present] at found
        cases found
      | some entry =>
        rw [present] at found
        have matched := List.find?_some present
        obtain rfl : entry.1 = name := eq_of_beq matched
        exact redactEntry_keeps shown (cleanScalar_of_plain plain) kept found

/-- Events that differ only under secret keys, outside reserved ones or in the context, are logged
alike, whatever their level. Every scalar that is not under a secret key, is no address with
credentials and is not under a monetary key that is dropped from the context is kept at its
place. -/
theorem redactSensitive_hides_credentials (python : Interpreter Object) :
    (∀ events others, List.Forall₂ (AlikeEvent python) events others →
      redactSensitive python events = redactSensitive python others) ∧
    ∀ (events : EventDict Object) (path : List KeyedTree.Step) (scalar : Scalar Object),
      (KeyedTree.dict events).get? path = some (.leaf scalar) →
      (∀ step ∈ path, step.Open (isSecretName python)) →
      (∀ text, scalar = .str text → ¬CarriesCredentials text) →
      ¬Dropped (isDebug (levelOf events)) path →
      (KeyedTree.dict (redactSensitive python events)).get? path = some (.leaf scalar) :=
  ⟨fun _ _ alike => redactSensitive_eq_of_alike alike,
    fun _ _ _ found shown plain kept => redactSensitive_keeps shown plain kept found⟩

end Redaction

theorem signUp_withoutAddresses (password : String)
    (plain : containsText "://" password = false) : WithoutAddresses (signUp password) := by
  refine .dict (List.forall_mem_singleton.mpr (.tuple (List.forall_mem_cons.mpr
    ⟨.dict (List.forall_mem_cons.mpr ⟨.leaf ?_, List.forall_mem_singleton.mpr (.leaf ?_)⟩),
      List.forall_mem_singleton.mpr (.leaf ?_)⟩)))
  · rintro text ⟨⟩
    exact plain
  · rintro text ⟨⟩
    decide
  · rintro text ⟨⟩

/-- The request of a sign-up is logged as it is shown in an error. -/
theorem redactInput_eq_redactValue_of_signUp :
    redactInput plainPython (signUp "hunter2") =
      redactValue plainPython "request" (signUp "hunter2") :=
  redactInput_eq_redactValue plainPython (signUp "hunter2")
    (signUp_withoutAddresses "hunter2" (by decide)) "request" (by decide +kernel)

/-- A failed login with its request, as it is logged. -/
def loginEvent (password : String) : EventDict Empty :=
  [("event", .leaf (.str "auth.attempt")), ("level", .leaf (.str "info")),
    ("context", .dict [("request", .dict [("Password", .leaf (.str password)),
      ("route", .tuple [.leaf (.str "login"), .leaf (.int 2)])]), ("balance", .leaf (.int 7))]),
    ("target", .leaf (.str "postgresql://ada:1815@db/ledger"))]

/-- The password leaves no trace, the route is kept, and the balance is dropped. -/
theorem redactSensitive_hides_credentials_of_login :
    redactSensitive plainPython (loginEvent "hunter2") =
        redactSensitive plainPython (loginEvent "letmein") ∧
      (KeyedTree.dict (redactSensitive plainPython (loginEvent "hunter2"))).get?
          [.key "context", .key "request", .key "route", .index 1] = some (.leaf (.int 2)) ∧
      strText plainPython (.dict (redactSensitive plainPython (loginEvent "hunter2"))) =
        "\x7b'event': 'auth.attempt', 'level': 'info', 'context': \x7b'request': \x7b" ++
          "'Password': '***REDACTED***', 'route': ['login', 2]\x7d\x7d, " ++
          "'target': 'postgresql://***:***@db/ledger'\x7d" := by
  have secret : isSecretName plainPython "Password" = true := by decide +kernel
  refine ⟨(redactSensitive_hides_credentials plainPython).1 _ _ ?_,
    (redactSensitive_hides_credentials plainPython).2 _ _ _ rfl ?_ ?_ ?_, ?_⟩
  · exact .cons (.reserved (by decide) _) (.cons (.reserved (by decide) _)
      (.cons (.context (.cons (.shown "request" (.dict (.cons (.hidden secret _ _)
        (.cons (.shown "route" (.tuple (.cons (.leaf _) (.cons (.leaf _) .nil)))) .nil))))
        (.cons (.shown "balance" (.leaf _)) .nil)))
      (.cons (.free (by decide) (.shown "target" (.leaf _))) .nil)))
  · decide +kernel
  · rintro text ⟨⟩
  · rintro ⟨_, _, dropped⟩
    exact absurd dropped (by decide)
  · decide +kernel

end Trutina
