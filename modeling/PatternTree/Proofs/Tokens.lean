import PatternTree.Import.Token
import PatternTree.Proofs.Precedence
import PatternTree.Proofs.RoundTrip

/-!
# Tokens are read by a fixed order of checks

A document is read as a token by five checks, one after the other, and is refused for the first one
that finds a fault.

* The faults of a token are a list of checks, which do not mention the readers, and `FirstFault`
  picks the one that counts (`Token.ofDocument_error_iff`).
* `Token.ofDocument_decides` adds what a document without faults denotes, and that every token is
  shown as a document that denotes it.
-/

namespace PatternTree

/-! ## Faults of texts -/

/-- The fault of an object at a location that has no text under a key. -/
inductive StringFault (owner field : String) (fields : Fields) (l : Location) : Fault → Prop where
  /-- the key is missing -/
  | missing (missing : Fields.value? field fields = none) :
      StringFault owner field fields l ⟨.missingField owner field, l⟩
  /-- the value is no text -/
  | notAString {d : Document} (present : Fields.value? field fields = some d)
      (other : ∀ s, d ≠ .string s) :
      StringFault owner field fields l ⟨.invalidField owner field "a string", l⟩

theorem readString_error_iff {owner field : String} {fields : Fields} {e : Fault} {l : Location} :
    (readString owner field fields l).outcome = .error e ↔ StringFault owner field fields l e := by
  refine ⟨?_, ?_⟩
  · intro h
    rw [readString] at h
    split at h
    · cases h
    · next d hother hd =>
      cases h
      exact .notAString hd hother
    · next hd =>
      cases h
      exact .missing hd
  · intro h
    rw [readString]
    cases h with
    | missing hd =>
      rw [hd]
      rfl
    | @notAString d hd hother =>
      rw [hd]
      cases d with
      | string s => exact absurd rfl (hother s)
      | _ => rfl

/-! ## Tokens -/

namespace TokenType

theorem ofName?_eq_some_iff {tag : String} {t : TokenType} : ofName? tag = some t ↔ t.name = tag :=
  find?_name_eq_some_iff (ofName?_name t)

theorem ofName?_eq_none_iff {tag : String} : ofName? tag = none ↔ ∀ t : TokenType, t.name ≠ tag :=
  find?_name_eq_none_iff mem_all

theorem ofName_ok_iff {tag : String} {l : Location} {t : TokenType} :
    (ofName tag l).outcome = .ok t ↔ t.name = tag := by
  rw [ofName, ← ofName?_eq_some_iff]
  cases ofName? tag <;> simp

theorem ofName_error_iff {tag : String} {l : Location} {e : Fault} :
    (ofName tag l).outcome = .error e ↔
      (∀ t : TokenType, t.name ≠ tag) ∧ e = ⟨.unknownTokenType tag, l⟩ := by
  rw [ofName, ← ofName?_eq_none_iff]
  cases ofName? tag <;> simp [eq_comm]

end TokenType

namespace Token

/-- A document denotes a token: an object with the location, the tag and the text. -/
def Denotes (d : Document) (t : Token) : Prop :=
  ∃ fields, d = .object fields ∧ DenotesLocation (Fields.value? "location" fields) t.location ∧
    Fields.value? "type" fields = some (.string t.type.name) ∧
    Fields.value? "value" fields = some (.string t.value)

/-- A document is read as the token that it denotes. -/
theorem ofDocument_ok_iff {d : Document} {t : Token} :
    (ofDocument d).outcome = .ok t ↔ Denotes d t := by
  refine ⟨?_, ?_⟩
  · intro h
    cases d with
    | object fields =>
      simp only [ofDocument, Traced.bind_ok_iff, readLocation_ok_iff, readString_ok_iff,
        TokenType.ofName_ok_iff] at h
      obtain ⟨l, hl, tag, htag, value, hvalue, type, rfl, h⟩ := h
      cases h
      exact ⟨fields, rfl, hl, htag, hvalue⟩
    | _ => cases h
  · rintro ⟨fields, rfl, hl, htag, hvalue⟩
    simp only [ofDocument, Traced.bind_ok_iff, readLocation_ok_iff, readString_ok_iff,
      TokenType.ofName_ok_iff]
    exact ⟨_, hl, _, htag, _, hvalue, _, rfl, rfl⟩

/-- The document is no object. -/
def NotAnObject (d : Document) (e : Fault) : Prop :=
  (∀ fields, d ≠ .object fields) ∧ e = ⟨.invalidField "Token" "token" "an object", .unset⟩

/-- Its location is malformed. -/
def BadLocation (d : Document) (e : Fault) : Prop :=
  ∃ fields v, d = .object fields ∧ Fields.value? "location" fields = some v ∧
    LocationFault "Token" v e

/-- It has no text under a key. The fault carries the location of the document. -/
def NoText (field : String) (d : Document) (e : Fault) : Prop :=
  ∃ fields l, d = .object fields ∧ DenotesLocation (Fields.value? "location" fields) l ∧
    StringFault "Token" field fields l e

/-- Its tag is none of the nine. The fault carries the tag and the location of the document. -/
def UnknownType (d : Document) (e : Fault) : Prop :=
  ∃ fields l tag, d = .object fields ∧ DenotesLocation (Fields.value? "location" fields) l ∧
    Fields.value? "type" fields = some (.string tag) ∧ (∀ t : TokenType, t.name ≠ tag) ∧
    e = ⟨.unknownTokenType tag, l⟩

/-- The checks of a document, in their order. -/
def checks (d : Document) : List (Fault → Prop) :=
  [NotAnObject d, BadLocation d, NoText "type" d, NoText "value" d, UnknownType d]

section

variable {fields : Fields} {l : Location} {e : Fault}

theorem badLocation_object_iff :
    BadLocation (.object fields) e ↔
      ∃ v, Fields.value? "location" fields = some v ∧ LocationFault "Token" v e := by
  simp [BadLocation]

theorem noText_object_iff {field : String}
    (hl : DenotesLocation (Fields.value? "location" fields) l) :
    NoText field (.object fields) e ↔ StringFault "Token" field fields l e := by
  refine ⟨?_, fun h => ⟨fields, l, rfl, hl, h⟩⟩
  rintro ⟨_, l', ⟨⟩, hl', h⟩
  obtain rfl := hl.unique hl'
  exact h

theorem unknownType_object_iff {tag : String}
    (hl : DenotesLocation (Fields.value? "location" fields) l)
    (htag : Fields.value? "type" fields = some (.string tag)) :
    UnknownType (.object fields) e ↔
      (∀ t : TokenType, t.name ≠ tag) ∧ e = ⟨.unknownTokenType tag, l⟩ := by
  refine ⟨?_, fun ⟨hunknown, he⟩ => ⟨fields, l, tag, rfl, hl, htag, hunknown, he⟩⟩
  rintro ⟨_, l', tag', ⟨⟩, hl', htag', hunknown, he⟩
  obtain rfl := hl.unique hl'
  rw [htag] at htag'
  cases htag'
  exact ⟨hunknown, he⟩

/-- An object passes the first check, and its reader makes the others one by one. -/
theorem ofDocument_object_error_iff :
    (ofDocument (.object fields)).outcome = .error e ↔ FirstFault (checks (.object fields)) e := by
  have hobject (e' : Fault) : ¬ NotAnObject (.object fields) e' := fun h => h.1 fields rfl
  rw [checks, firstFault_cons_of_none hobject, ofDocument]
  refine Traced.bind_error_iff_firstFault ?_ ?_
  · intro e
    exact readLocation_error_iff.trans badLocation_object_iff.symm
  intro l hl e
  rw [readLocation_ok_iff] at hl
  refine Traced.bind_error_iff_firstFault ?_ ?_
  · intro e
    exact readString_error_iff.trans (noText_object_iff hl).symm
  intro tag htag e
  rw [readString_ok_iff] at htag
  refine Traced.bind_error_iff_firstFault ?_ ?_
  · intro e
    exact readString_error_iff.trans (noText_object_iff hl).symm
  intro value _ e
  refine Traced.bind_error_iff_firstFault ?_ ?_
  · intro e
    exact TokenType.ofName_error_iff.trans (unknownType_object_iff hl htag).symm
  intro type _ e
  exact Traced.error_iff_of_ok rfl

end

/-- A document is refused for the first check that finds a fault. -/
theorem ofDocument_error_iff {d : Document} {e : Fault} :
    (ofDocument d).outcome = .error e ↔ FirstFault (checks d) e := by
  by_cases hobject : ∃ fields, d = .object fields
  · obtain ⟨fields, rfl⟩ := hobject
    exact ofDocument_object_error_iff
  · have hother : ∀ fields, d ≠ .object fields := fun fields h => hobject ⟨fields, h⟩
    have hread :
        (ofDocument d).outcome = .error ⟨.invalidField "Token" "token" "an object", .unset⟩ := by
      cases d with
      | object fields => exact absurd rfl (hother fields)
      | _ => rfl
    rw [hread, checks, firstFault_cons]
    refine ⟨?_, ?_⟩
    · intro h
      cases h
      exact .inl ⟨hother, rfl⟩
    · rintro (⟨-, rfl⟩ | ⟨hnone, -⟩)
      · rfl
      · exact absurd ⟨hother, rfl⟩ (hnone _)

/-- Every token is shown as a document that denotes it, without its location if locations are not
shown. -/
theorem denotes_toDocument (settings : Settings) (t : Token) :
    Denotes (t.toDocument settings) { t with location := t.location.normal settings } := by
  refine ⟨_, rfl, ?_, rfl, rfl⟩
  simpa using t.location.denotes_toFields

/-- No check finds a fault of the shape of a tree. -/
theorem isStructural_of_mem_checks {d : Document} {check : Fault → Prop} {e : Fault}
    (hcheck : check ∈ checks d) (he : check e) : e.cause.isStructural = false := by
  simp only [checks, List.mem_cons, List.not_mem_nil, or_false] at hcheck
  rcases hcheck with rfl | rfl | rfl | rfl | rfl
  · obtain ⟨-, rfl⟩ := he
    rfl
  · obtain ⟨fields, v, -, -, hv⟩ := he
    obtain ⟨field, expected, rfl⟩ := hv.eq_invalidField
    rfl
  · obtain ⟨fields, l, -, -, htype⟩ := he
    cases htype <;> rfl
  · obtain ⟨fields, l, -, -, hvalue⟩ := he
    cases hvalue <;> rfl
  · obtain ⟨fields, l, tag, -, -, -, -, rfl⟩ := he
    rfl

/-- **Tokens are read by a fixed order of checks.** Reading inverts showing, up to the location if
that is not shown. A document is read as the token it denotes, and any other is refused for the
first check that finds a fault. A fault of the first two checks has no location, and none is about
the shape of a tree. -/
theorem ofDocument_decides :
    (∀ settings t, (ofDocument (toDocument settings t)).outcome =
        .ok { t with location := t.location.normal settings }) ∧
      (∀ d t, (ofDocument d).outcome = .ok t ↔ Denotes d t) ∧
      (∀ d e, (ofDocument d).outcome = .error e ↔ FirstFault (checks d) e) ∧
      (∀ d e, NotAnObject d e ∨ BadLocation d e → e.location = .unset) ∧
      ∀ d e, (ofDocument d).outcome = .error e → e.cause.isStructural = false := by
  refine ⟨?_, fun d t => ofDocument_ok_iff, fun d e => ofDocument_error_iff, ?_, ?_⟩
  · intro settings t
    exact ofDocument_ok_iff.mpr (denotes_toDocument settings t)
  · rintro d e (⟨-, rfl⟩ | ⟨fields, v, -, -, hv⟩)
    · rfl
    · obtain ⟨field, expected, rfl⟩ := hv.eq_invalidField
      rfl
  · intro d e h
    obtain ⟨check, hcheck, he⟩ := (ofDocument_error_iff.mp h).exists_mem
    exact isStructural_of_mem_checks hcheck he

/-- A missing text comes before a tag that is unknown. -/
example : (ofDocument (.object [("type", .string "Word")])).outcome =
    .error ⟨.missingField "Token" "value", .unset⟩ :=
  rfl

end Token

end PatternTree
