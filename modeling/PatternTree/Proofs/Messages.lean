import Mathlib.Data.List.Basic
import PatternTree.Proofs.Editing
import PatternTree.Proofs.Tokens

/-!
# Messages tell causes apart

The message of a cause can be read back. `Cause.ofMessage?` does so: the names that a message quotes
are made of letters, so each of them ends where the letters end, and what follows says which cause
it is.

* `Cause.ofMessage?_message`: reading back the message of a cause whose names are made of letters
  gives the cause.
* Hence two such causes with one message are equal (`Cause.message_eq_iff`). All causes that the
  library reports are of that sort.
-/

namespace PatternTree

/-- The name is made of letters. -/
def InLetters (name : String) : Prop :=
  ∀ x ∈ name.toList, x.isAlpha = true

instance (name : String) : Decidable (InLetters name) :=
  List.decidableBAll _ name.toList

namespace Cause

/-- The names of fields and nodes that a cause mentions. -/
def names : Cause → List String
  | .absentElement field _ => [field]
  | .missingCapability place _ _ => [place.field]
  | .notAnArray field => [field]
  | .notANode place => [place.field]
  | .unknownNodeType _ => []
  | .unknownTokenType _ => []
  | .missingField node field => [node, field]
  | .invalidField node field _ => [node, field]

/-- The names that a cause mentions are made of letters. -/
def Lettered (c : Cause) : Prop :=
  ∀ name ∈ c.names, InLetters name

instance (c : Cause) : Decidable c.Lettered :=
  List.decidableBAll InLetters c.names

/-! ## Reading messages back -/

/-- What follows a phrase at the front of a text. -/
def after? (phrase : String) (cs : List Char) : Option (List Char) :=
  phrase.toList.isPrefixOf? cs

/-- The name at the front of a text. -/
def leadingName (cs : List Char) : String :=
  .ofList (cs.takeWhile Char.isAlpha)

/-- What follows the name at the front of a text. -/
def afterName (cs : List Char) : List Char :=
  cs.dropWhile Char.isAlpha

/-- A place and the closing quote behind it. -/
def readPlace (cs : List Char) : Option (Place × List Char) :=
  match afterName cs with
  | '\x60' :: rest => some (⟨leadingName cs, none⟩, rest)
  | '[' :: digits =>
    match digits.dropWhile Char.isDigit with
    | ']' :: '\x60' :: rest =>
      some (⟨leadingName cs, some (Nat.ofDigitChars 10 (digits.takeWhile Char.isDigit) 0)⟩, rest)
    | _ => none
  | _ => none

/-- A capability and the kind that lacks it. -/
def readMismatch (place : Place) (cs : List Char) : Option Cause := do
  let expected ← Capability.ofName? (leadingName cs)
  let kind ← after? ", found " (afterName cs)
  let found ← Kind.ofName? (.ofList kind)
  some (.missingCapability place expected found)

/-- What is said about a place. -/
def readRemark (place : Place) (cs : List Char) : Option Cause :=
  match after? " of " cs with
  | some node =>
    (after? " must be " (afterName node)).map fun expected =>
      .invalidField (leadingName node) place.field (.ofList expected)
  | none =>
    match after? " must be a " cs with
    | some mismatch => readMismatch place mismatch
    | none =>
      if cs = " must be an array".toList then some (.notAnArray place.field)
      else if cs = " is not a node".toList then some (.notANode place)
      else place.index.map (.absentElement place.field)

/-- What is said behind a first word that is not quoted. -/
def readPlain (word : String) (cs : List Char) : Option Cause :=
  match after? " is missing the `" cs with
  | some field => some (.missingField word (leadingName field))
  | none =>
    match after? " node type `" cs with
    | some tag => some (.unknownNodeType (.ofList tag.dropLast))
    | none => (after? " token type `" cs).map fun tag => .unknownTokenType (.ofList tag.dropLast)

/-- The cause that a message is about. -/
def ofMessage? (message : String) : Option Cause :=
  match message.toList with
  | '\x60' :: cs => do
    let (place, cs) ← readPlace cs
    readRemark place cs
  | cs => readPlain (leadingName cs) (afterName cs)

theorem after?_append (phrase : String) (cs : List Char) :
    after? phrase (phrase.toList ++ cs) = some cs :=
  List.isPrefixOf?_eq_some_iff_append_eq.mpr rfl

section

variable {name : String} (lettered : InLetters name)

include lettered

theorem leadingName_append {x : Char} (hx : x.isAlpha = false) (cs : List Char) :
    leadingName (name.toList ++ x :: cs) = name := by
  rw [leadingName, List.takeWhile_append_of_pos lettered, List.takeWhile_cons_of_neg (by simp [hx]),
    List.append_nil, String.ofList_toList]

theorem afterName_append {x : Char} (hx : x.isAlpha = false) (cs : List Char) :
    afterName (name.toList ++ x :: cs) = x :: cs := by
  rw [afterName, List.dropWhile_append_of_pos lettered, List.dropWhile_cons_of_neg (by simp [hx])]

end

theorem readPlace_display (place : Place) (lettered : InLetters place.field)
    (cs : List Char) : readPlace (place.display.toList ++ '\x60' :: cs) = some (place, cs) := by
  obtain ⟨field, index⟩ := place
  cases index with
  | none =>
    have hquote : '\x60'.isAlpha = false := by decide
    change readPlace (field.toList ++ '\x60' :: cs) = _
    simp only [readPlace, afterName_append lettered hquote, leadingName_append lettered hquote]
  | some i =>
    have hbracket : '['.isAlpha = false := by decide
    have hdisplay : (Place.mk field (some i)).display.toList ++ '\x60' :: cs =
        field.toList ++ '[' :: (Nat.toDigits 10 i ++ ']' :: '\x60' :: cs) := by
      simp [Place.display, Nat.toString_eq_repr]
    have hdigits : ∀ x ∈ Nat.toDigits 10 i, x.isDigit = true :=
      fun x hx => Nat.isDigit_of_mem_toDigits (by decide) (by decide) hx
    rw [hdisplay]
    simp only [readPlace, afterName_append lettered hbracket, leadingName_append lettered hbracket]
    simp [List.dropWhile_append_of_pos hdigits, List.takeWhile_append_of_pos hdigits]

/-- A message that begins with a quoted place goes on with a remark about it. -/
theorem ofMessage?_quoted {message : String} {place : Place} {cs : List Char}
    (h : message.toList = '\x60' :: (place.display.toList ++ '\x60' :: cs))
    (lettered : InLetters place.field) :
    ofMessage? message = readRemark place cs := by
  simp only [ofMessage?, h]
  rw [readPlace_display place lettered]
  rfl

/-- Any other message begins with a word. -/
theorem ofMessage?_plain {message word : String} {cs : List Char}
    (h : message.toList = word.toList ++ ' ' :: cs) (lettered : InLetters word) :
    ofMessage? message = readPlain word (' ' :: cs) := by
  have hquote : ∀ rest, message.toList ≠ '\x60' :: rest := by
    intro rest hrest
    rw [h] at hrest
    cases hword : word.toList with
    | nil => simp [hword] at hrest
    | cons x xs =>
      rw [hword] at hrest
      obtain ⟨rfl, -⟩ := List.cons.inj hrest
      have hmem : '\x60' ∈ word.toList := hword ▸ List.mem_cons_self
      exact absurd (lettered _ hmem) (by decide)
  unfold ofMessage?
  split
  · next rest hrest => exact absurd hrest (hquote rest)
  · rw [h, leadingName_append lettered (by decide), afterName_append lettered (by decide)]

theorem readMismatch_names (place : Place) (expected : Capability) (found : Kind) :
    readMismatch place (expected.name.toList ++ (", found ".toList ++ found.name.toList)) =
      some (.missingCapability place expected found) := by
  have hexpected : InLetters expected.name := by
    cases expected <;> decide
  have hcomma : ','.isAlpha = false := by decide
  have hname := leadingName_append hexpected hcomma (" found ".toList ++ found.name.toList)
  have hrest := afterName_append hexpected hcomma (" found ".toList ++ found.name.toList)
  have hphrase :
      ", found ".toList ++ found.name.toList = ',' :: (" found ".toList ++ found.name.toList) := rfl
  rw [readMismatch, hphrase, hname, hrest, ← hphrase, after?_append, Capability.ofName?_name]
  simp

/-- A message says which cause it is about. -/
theorem ofMessage?_message {c : Cause} (h : c.Lettered) : ofMessage? c.message = some c := by
  cases c with
  | absentElement field index =>
    have hmessage : (absentElement field index).message.toList =
        '\x60' :: ((Place.mk field (some index)).display.toList ++
          '\x60' :: " must not be empty".toList) := by
      change ("`" ++ (Place.mk field (some index)).display ++ "` must not be empty").toList = _
      simp
    rw [ofMessage?_quoted hmessage (h field (by simp [names]))]
    rfl
  | missingCapability place expected found =>
    have hmessage : (missingCapability place expected found).message.toList =
        '\x60' :: (place.display.toList ++ '\x60' :: (" must be a ".toList ++
          (expected.name.toList ++ (", found ".toList ++ found.name.toList)))) := by
      change ("`" ++ place.display ++ "` must be a " ++ expected.name ++ ", found " ++
        found.name).toList = _
      simp
    rw [ofMessage?_quoted hmessage (h place.field (by simp [names])), readRemark, after?_append]
    exact readMismatch_names place expected found
  | notAnArray field =>
    have hmessage : (notAnArray field).message.toList =
        '\x60' :: ((Place.mk field none).display.toList ++
          '\x60' :: " must be an array".toList) := by
      change ("`" ++ field ++ "` must be an array").toList = _
      simp [Place.display]
    rw [ofMessage?_quoted hmessage (h field (by simp [names]))]
    rfl
  | notANode place =>
    have hmessage : (notANode place).message.toList =
        '\x60' :: (place.display.toList ++ '\x60' :: " is not a node".toList) := by
      change ("`" ++ place.display ++ "` is not a node").toList = _
      simp
    rw [ofMessage?_quoted hmessage (h place.field (by simp [names]))]
    rfl
  | unknownNodeType tag =>
    have hmessage : (unknownNodeType tag).message.toList =
        "unknown".toList ++ ' ' :: ("node type `".toList ++ (tag.toList ++ ['\x60'])) := by
      change ("unknown node type `" ++ tag ++ "`").toList = _
      simp
    rw [ofMessage?_plain hmessage (by decide)]
    change some (unknownNodeType (.ofList (tag.toList ++ ['\x60']).dropLast)) = _
    rw [List.dropLast_concat, String.ofList_toList]
  | unknownTokenType tag =>
    have hmessage : (unknownTokenType tag).message.toList =
        "unknown".toList ++ ' ' :: ("token type `".toList ++ (tag.toList ++ ['\x60'])) := by
      change ("unknown token type `" ++ tag ++ "`").toList = _
      simp
    rw [ofMessage?_plain hmessage (by decide)]
    change some (unknownTokenType (.ofList (tag.toList ++ ['\x60']).dropLast)) = _
    rw [List.dropLast_concat, String.ofList_toList]
  | missingField node field =>
    have hmessage : (missingField node field).message.toList =
        node.toList ++ ' ' ::
          ("is missing the `".toList ++ (field.toList ++ '\x60' :: " field".toList)) := by
      change (node ++ " is missing the `" ++ field ++ "` field").toList = _
      simp
    rw [ofMessage?_plain hmessage (h node (by simp [names]))]
    change some (missingField node (leadingName (field.toList ++ '\x60' :: " field".toList))) = _
    rw [leadingName_append (h field (by simp [names])) (by decide)]
  | invalidField node field expected =>
    have hmessage : (invalidField node field expected).message.toList =
        '\x60' :: ((Place.mk field none).display.toList ++ '\x60' :: (" of ".toList ++
          (node.toList ++ ' ' :: ("must be ".toList ++ expected.toList)))) := by
      change ("`" ++ field ++ "` of " ++ node ++ " must be " ++ expected).toList = _
      simp [Place.display]
    have hnode : InLetters node := h node (by simp [names])
    have hblank : ' '.isAlpha = false := by decide
    have hexpected : after? " must be " (' ' :: ("must be ".toList ++ expected.toList)) =
        some expected.toList := after?_append " must be " expected.toList
    rw [ofMessage?_quoted hmessage (h field (by simp [names])), readRemark, after?_append]
    simp only [afterName_append hnode hblank, leadingName_append hnode hblank, hexpected,
      Option.map_some, String.ofList_toList]

/-! ## The causes that the library reports -/

section

variable {owner field : String}

theorem lettered_missingField (howner : InLetters owner) (hfield : InLetters field) :
    (missingField owner field).Lettered :=
  List.forall_mem_cons.mpr ⟨howner, List.forall_mem_singleton.mpr hfield⟩

theorem lettered_invalidField (howner : InLetters owner) (hfield : InLetters field)
    (expected : String) : (invalidField owner field expected).Lettered :=
  List.forall_mem_cons.mpr ⟨howner, List.forall_mem_singleton.mpr hfield⟩

theorem lettered_missingCapability {place : Place} (hplace : InLetters place.field)
    (expected : Capability) (found : Kind) : (missingCapability place expected found).Lettered :=
  List.forall_mem_singleton.mpr hplace

theorem lettered_offence (c : Capability) (hfield : InLetters field) (index : Nat)
    (n : Option AnyNode) : (offence c field index n).cause.Lettered := by
  cases n <;> exact List.forall_mem_singleton.mpr hfield

theorem lettered_of_malformedPosition (howner : InLetters owner) {d : Document} {cause : Cause}
    (h : MalformedPosition owner d cause) : cause.Lettered := by
  cases h with
  | notAnObject _ _ => exact lettered_invalidField howner (by decide) _
  | coordinate named _ =>
    have hnames : ∀ name ∈ ["line", "column", "offset"], InLetters name := by decide
    exact lettered_invalidField howner (hnames _ named) _

theorem lettered_of_malformedLocation (howner : InLetters owner) {d : Document} {cause : Cause}
    (h : MalformedLocation owner d cause) : cause.Lettered := by
  cases h with
  | notAnObject _ _ => exact lettered_invalidField howner (by decide) _
  | position _ _ malformed => exact lettered_of_malformedPosition howner malformed

end

theorem inLetters_owner (t : Tag) : InLetters t.owner := by
  cases t <;> decide

theorem inLetters_step (s : Step) : InLetters s.place.field := by
  have helements : InLetters "elements" := by decide
  have hproperties : InLetters "properties" := by decide
  cases s with
  | element i => exact helements
  | entry i => exact hproperties
  | _ => decide

theorem inLetters_endPlace {place : Place} (h : InLetters place.field) (path : List Step) :
    InLetters (Step.endPlace place path).field := by
  induction path generalizing place with
  | nil => exact h
  | cons s path ih => exact ih (inLetters_step s)

theorem lettered_of_blames {place : Place} (hplace : InLetters place.field) {v : Document}
    {e : Fault} (h : Blames place v e) : e.cause.Lettered := by
  cases h with
  | notANode _ _ => exact List.forall_mem_singleton.mpr hplace
  | unknownNodeType _ _ _ => exact List.forall_mem_nil _
  | @missingField _ _ t field _ _ required _ _ =>
    have hrequired : ∀ name ∈ t.required, InLetters name := by cases t <;> decide
    exact lettered_missingField (inLetters_owner t) (hrequired field required)
  | @invalidField _ _ t field form _ _ _ plain _ _ _ =>
    have hforms : ∀ entry ∈ t.forms, InLetters entry.1 := by cases t <;> decide
    exact lettered_invalidField (inLetters_owner t) (hforms _ plain) _
  | @notAnArray _ _ t field _ _ _ list _ _ _ =>
    have hlist : ∀ name ∈ t.list?, InLetters name := by cases t <;> decide
    exact List.forall_mem_singleton.mpr (hlist field list)
  | location named _ malformed =>
    cases named with
    | tagged => exact lettered_of_malformedLocation (inLetters_owner _) malformed
    | unknown => exact lettered_of_malformedLocation (by decide) malformed
  | absentElement index => exact List.forall_mem_singleton.mpr (by decide)
  | missingCapability _ _ => exact lettered_missingCapability (inLetters_step _) _ _

/-- The faults of reading a tree. -/
theorem lettered_of_readNode {d : Document} {e : Fault}
    (h : (Node.ofDocument d).outcome = .error e) : e.cause.Lettered := by
  obtain ⟨path, v, -, hblames⟩ := exists_blames_of_read (fun _ => rfl) h
  exact lettered_of_blames (inLetters_endPlace (by decide) path) hblames

/-- The faults of reading a token. -/
theorem lettered_of_readToken {d : Document} {e : Fault}
    (h : (Token.ofDocument d).outcome = .error e) : e.cause.Lettered := by
  have howner : InLetters "Token" := by decide
  have hstring {field : String} (hfield : InLetters field) {fields : Fields} {l : Location}
      (h : (readString "Token" field fields l).outcome = .error e) : e.cause.Lettered := by
    cases readString_error_iff.mp h with
    | missing _ => exact lettered_missingField howner hfield
    | notAString _ _ => exact lettered_invalidField howner hfield _
  cases d with
  | object fields =>
    simp only [Token.ofDocument, Traced.bind_error_iff] at h
    rcases h with h | ⟨l, -, h | ⟨tag, -, h | ⟨value, -, h | ⟨_, -, h⟩⟩⟩⟩
    · obtain ⟨_, _, -, malformed, rfl⟩ := readLocation_error h
      exact lettered_of_malformedLocation howner malformed
    · exact hstring (by decide) h
    · exact hstring (by decide) h
    · obtain ⟨-, rfl⟩ := TokenType.ofName_error_iff.mp h
      exact List.forall_mem_nil _
    · cases h
  | _ =>
    cases h
    exact lettered_invalidField howner (by decide) _

/-- A write after a check fails only if the check does. -/
theorem outcome_of_check_update {σ α : Type} {t : Traced α} {f : α → σ → σ} {s : σ} {e : Fault}
    (h : ((do let a ← InPlace.check t; InPlace.update (f a)) s).result.outcome = .error e) :
    t.outcome = .error e := by
  cases ht : t.outcome with
  | ok a =>
    rw [InPlace.check_bind_ok ht] at h
    cases h
  | error e' =>
    rw [InPlace.check_bind_error ht] at h
    cases h
    rfl

/-- The faults of filling a node. -/
theorem lettered_of_edit {k : Kind} {edit : Edit k} {b : Body k} {e : Fault}
    (h : (edit.apply b).result.outcome = .error e) : e.cause.Lettered := by
  cases edit with
  | tryChild s n =>
    obtain ⟨-, rfl⟩ := require_error_iff.mp (outcome_of_check_update h)
    exact lettered_missingCapability (by cases s <;> decide) _ _
  | tryElements ns =>
    obtain ⟨i, n, -, -, -, rfl⟩ := requireEntries_error_iff.mp (outcome_of_check_update h)
    exact lettered_offence _ (by decide) i n
  | tryProperties ns =>
    have hlist := outcome_of_check_update h
    rw [requireList_error_iff, ← outcome_requireEntries] at hlist
    obtain ⟨i, n, -, -, -, rfl⟩ := requireEntries_error_iff.mp hlist
    exact lettered_offence _ (by decide) i n
  | _ => cases h

/-- **Messages are unambiguous.** Causes whose names are made of letters are equal if their messages
are, whatever the indices, kinds, tags and expectations in them. The causes that the library reports
when it reads a tree or a token, or fills a node, are of that sort. -/
theorem message_unambiguous :
    (∀ c c' : Cause, c.Lettered → c'.Lettered → (c.message = c'.message ↔ c = c')) ∧
      (∀ d e, (Node.ofDocument d).outcome = .error e → e.cause.Lettered) ∧
      (∀ d e, (Token.ofDocument d).outcome = .error e → e.cause.Lettered) ∧
      ∀ (k : Kind) (edit : Edit k) (b : Body k) (e : Fault),
        (edit.apply b).result.outcome = .error e → e.cause.Lettered := by
  refine ⟨?_, fun _ _ => lettered_of_readNode, fun _ _ => lettered_of_readToken,
    fun _ _ _ _ => lettered_of_edit⟩
  intro c c' h h'
  refine ⟨?_, congrArg message⟩
  intro hmessage
  have hread : some c = some c' := by
    rw [← ofMessage?_message h, ← ofMessage?_message h', hmessage]
  exact Option.some.inj hread

/-- An expectation worded like a mismatch is still told apart from one. -/
theorem lookalikes_told_apart :
    (invalidField "Literal" "value" "a Pattern, found Literal").Lettered ∧
      (missingCapability ⟨"value", none⟩ .pattern .literal).Lettered ∧
      (invalidField "Literal" "value" "a Pattern, found Literal").message ≠
        (missingCapability ⟨"value", none⟩ .pattern .literal).message := by
  refine ⟨by decide, by decide, ?_⟩
  intro hmessage
  have heq := (message_unambiguous.1 _ _ (by decide) (by decide)).mp hmessage
  exact absurd heq (by decide)

/-- Without letters a name can look like a name with an index. -/
example : (notANode ⟨"a[0]", none⟩).message = (notANode ⟨"a", some 0⟩).message := by decide

end Cause

end PatternTree
