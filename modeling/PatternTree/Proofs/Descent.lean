import PatternTree.Document.Reader

/-!
# Documents as sequences of lexemes

Once the text is cut into lexemes a document has one form: `Document.lexemes` lists its lexemes in
order. The reader by recursive descent accepts this form and no other, and gives the document back
(`Document.ofLexemes_ok_iff`).
-/

namespace PatternTree

namespace Document

mutual

/-- The lexemes that a document is made of. -/
def lexemes : Document → List Lexeme
  | .null => [.null]
  | .bool b => [.bool b]
  | .number n => [.number n]
  | .string s => [.string s]
  | .array entries => .openBracket :: (entryLexemes entries ++ [.closeBracket])
  | .object fields => .openBrace :: (fieldLexemes fields ++ [.closeBrace])

/-- The lexemes of the entries of an array, divided by commas. -/
def entryLexemes : List Document → List Lexeme
  | [] => []
  | [d] => d.lexemes
  | d :: rest => d.lexemes ++ .comma :: entryLexemes rest

/-- The lexemes of the fields of an object, divided by commas. -/
def fieldLexemes : List (String × Document) → List Lexeme
  | [] => []
  | [(key, d)] => .string key :: .colon :: d.lexemes
  | (key, d) :: rest => .string key :: .colon :: (d.lexemes ++ .comma :: fieldLexemes rest)

end

/-- No document begins with a closing bracket or brace. -/
theorem exists_lexemes_eq_cons (d : Document) :
    ∃ l ls, d.lexemes = l :: ls ∧ l ≠ .closeBracket ∧ l ≠ .closeBrace := by
  cases d with
  | null => exact ⟨_, _, rfl, by decide, by decide⟩
  | bool b => exact ⟨_, _, rfl, by simp, by simp⟩
  | number n => exact ⟨_, _, rfl, by simp, by simp⟩
  | string s => exact ⟨_, _, rfl, by simp, by simp⟩
  | array entries => exact ⟨_, _, by rw [lexemes], by decide, by decide⟩
  | object fields => exact ⟨_, _, by rw [lexemes], by decide, by decide⟩

theorem entryLexemes_cons (d : Document) {ds : List Document} (h : ds ≠ []) :
    entryLexemes (d :: ds) = d.lexemes ++ .comma :: entryLexemes ds := by
  cases ds with
  | nil => exact absurd rfl h
  | cons e rest => rw [entryLexemes]; simp

theorem fieldLexemes_cons (key : String) (d : Document) {fields : Fields} (h : fields ≠ []) :
    fieldLexemes ((key, d) :: fields) =
      .string key :: .colon :: (d.lexemes ++ .comma :: fieldLexemes fields) := by
  cases fields with
  | nil => exact absurd rfl h
  | cons f rest => rw [fieldLexemes]; simp

/-! ## What is read has the form -/

/-- A sequence succeeds only if both parts do. -/
theorem ok_of_bind {ε α β : Type} {x : Except ε α} {f : α → Except ε β} {b : β}
    (h : (x >>= f) = .ok b) : ∃ a, x = .ok a ∧ f a = .ok b := by
  cases x with
  | error e => cases h
  | ok a => exact ⟨a, rfl, h⟩

theorem eq_of_parseKey {ls : List Lexeme} {p : Parsed String ls} (h : parseKey ls = .ok p) :
    ls = .string p.value :: .colon :: p.rest := by
  unfold parseKey at h
  split at h
  case h_2 =>
    cases h
    rfl
  all_goals cases h

/-- The entries of an array are read one by one, up to the closing bracket. -/
theorem parseEntries_ok {ls : List Lexeme} {p : Parsed (List Document) ls}
    (h : parseEntries ls = .ok p) :
    ∃ q, parseValue ls = .ok q ∧
      (q.rest = .closeBracket :: p.rest ∧ p.value = [q.value] ∨
        ∃ rest r, q.rest = .comma :: rest ∧ parseEntries rest = .ok r ∧
          p.value = q.value :: r.value ∧
          p.rest = r.rest) := by
  rw [parseEntries] at h
  obtain ⟨⟨d, left, hleft⟩, hq, h⟩ := ok_of_bind h
  refine ⟨_, hq, ?_⟩
  dsimp only at h
  split at h
  · cases h
    exact .inl ⟨rfl, rfl⟩
  · next rest hrest =>
    obtain ⟨r, hr, h⟩ := ok_of_bind h
    cases h
    exact .inr ⟨rest, r, rfl, hr, rfl, rfl⟩
  · cases h
  · cases h

/-- The fields of an object are read one by one, up to the closing brace. -/
theorem parseFields_ok {ls : List Lexeme} {p : Parsed Fields ls} (h : parseFields ls = .ok p) :
    ∃ k q, parseKey ls = .ok k ∧ parseValue k.rest = .ok q ∧
      (q.rest = .closeBrace :: p.rest ∧ p.value = [(k.value, q.value)] ∨
        ∃ rest r, q.rest = .comma :: rest ∧ parseFields rest = .ok r ∧
          p.value = (k.value, q.value) :: r.value ∧ p.rest = r.rest) := by
  rw [parseFields] at h
  obtain ⟨k, hk, h⟩ := ok_of_bind h
  obtain ⟨⟨d, left, hleft⟩, hq, h⟩ := ok_of_bind h
  refine ⟨k, _, hk, hq, ?_⟩
  dsimp only at h
  split at h
  · cases h
    exact .inl ⟨rfl, rfl⟩
  · next rest hrest =>
    obtain ⟨r, hr, h⟩ := ok_of_bind h
    cases h
    exact .inr ⟨rest, r, rfl, hr, rfl, rfl⟩
  · cases h
  · cases h

/-- What the three readers promise about lists of lexemes of a length: what was read, in the form of
its lexemes, stands before what is left. -/
structure Faithful (n : Nat) : Prop where
  /-- one document -/
  value : ∀ {ls : List Lexeme} {p : Parsed Document ls}, ls.length = n → parseValue ls = .ok p →
    ls = p.value.lexemes ++ p.rest
  /-- the entries of an array -/
  entries : ∀ {ls : List Lexeme} {p : Parsed (List Document) ls}, ls.length = n →
    parseEntries ls = .ok p →
    p.value ≠ [] ∧ ls = entryLexemes p.value ++ .closeBracket :: p.rest
  /-- the fields of an object -/
  fields : ∀ {ls : List Lexeme} {p : Parsed Fields ls}, ls.length = n → parseFields ls = .ok p →
    p.value ≠ [] ∧ ls = fieldLexemes p.value ++ .closeBrace :: p.rest

section

variable {n : Nat} (below : ∀ m < n, Faithful m)

include below

theorem value_of_below {ls : List Lexeme} {p : Parsed Document ls} (hn : ls.length = n)
    (h : parseValue ls = .ok p) : ls = p.value.lexemes ++ p.rest := by
  rw [parseValue.eq_def] at h
  split at h
  -- only an array and an object that are not empty have lexemes inside that are read by others
  case h_7 rest _ =>
    obtain ⟨q, hq, h⟩ := ok_of_bind h
    cases h
    rw [List.length_cons] at hn
    obtain ⟨-, hform⟩ := (below rest.length (by omega)).entries rfl hq
    rw [lexemes, List.cons_append, List.append_assoc, List.singleton_append, ← hform]
  case h_9 rest _ =>
    obtain ⟨q, hq, h⟩ := ok_of_bind h
    cases h
    rw [List.length_cons] at hn
    obtain ⟨-, hform⟩ := (below rest.length (by omega)).fields rfl hq
    rw [lexemes, List.cons_append, List.append_assoc, List.singleton_append, ← hform]
  all_goals cases h
  all_goals simp [lexemes, entryLexemes, fieldLexemes]

theorem entries_of_below {ls : List Lexeme} {p : Parsed (List Document) ls} (hn : ls.length = n)
    (h : parseEntries ls = .ok p) :
    p.value ≠ [] ∧ ls = entryLexemes p.value ++ .closeBracket :: p.rest := by
  obtain ⟨q, hq, hrest⟩ := parseEntries_ok h
  have hd : ls = q.value.lexemes ++ q.rest := value_of_below below hn hq
  rcases hrest with ⟨hrest, hvalue⟩ | ⟨rest, r, hrest, hr, hvalue, hleft⟩
  · rw [hvalue, entryLexemes, ← hrest]
    exact ⟨List.cons_ne_nil _ _, hd⟩
  · have hshorter := q.shorter
    rw [hrest, List.length_cons] at hshorter
    obtain ⟨hne, hform⟩ := (below rest.length (by omega)).entries rfl hr
    rw [hvalue, entryLexemes_cons _ hne, hleft, List.append_assoc, List.cons_append, ← hform,
      ← hrest]
    exact ⟨List.cons_ne_nil _ _, hd⟩

theorem fields_of_below {ls : List Lexeme} {p : Parsed Fields ls} (hn : ls.length = n)
    (h : parseFields ls = .ok p) :
    p.value ≠ [] ∧ ls = fieldLexemes p.value ++ .closeBrace :: p.rest := by
  obtain ⟨k, q, hk, hq, hrest⟩ := parseFields_ok h
  have hkey : ls = .string k.value :: .colon :: k.rest := eq_of_parseKey hk
  have hkshorter := k.shorter
  have hd : k.rest = q.value.lexemes ++ q.rest := (below k.rest.length (by omega)).value rfl hq
  rcases hrest with ⟨hrest, hvalue⟩ | ⟨rest, r, hrest, hr, hvalue, hleft⟩
  · rw [hvalue, fieldLexemes, List.cons_append, List.cons_append, ← hrest, ← hd]
    exact ⟨List.cons_ne_nil _ _, hkey⟩
  · have hshorter := q.shorter
    rw [hrest, List.length_cons] at hshorter
    obtain ⟨hne, hform⟩ := (below rest.length (by omega)).fields rfl hr
    rw [hvalue, fieldLexemes_cons _ _ hne, hleft, List.cons_append, List.cons_append,
      List.append_assoc, List.cons_append, ← hform, ← hrest, ← hd]
    exact ⟨List.cons_ne_nil _ _, hkey⟩

end

theorem faithful (n : Nat) : Faithful n := by
  induction n using Nat.strongRecOn with
  | ind n below => exact ⟨value_of_below below, entries_of_below below, fields_of_below below⟩

/-! ## What has the form is read -/

/-- The reader takes the value off the front and leaves the rest. -/
def Takes {α : Type} (parse : (ls : List Lexeme) → Except Problem (Parsed α ls)) (ls : List Lexeme)
    (a : α) (rest : List Lexeme) : Prop :=
  ∃ h, parse ls = .ok ⟨a, rest, h⟩

theorem takes_key (key : String) (rest : List Lexeme) :
    Takes parseKey (.string key :: .colon :: rest) key rest :=
  ⟨_, rfl⟩

/-- A last entry. -/
theorem Takes.entry {ls : List Lexeme} {d : Document} {rest : List Lexeme}
    (h : Takes parseValue ls d (.closeBracket :: rest)) : Takes parseEntries ls [d] rest := by
  obtain ⟨hshorter, hd⟩ := h
  rw [Takes, parseEntries, hd]
  exact ⟨_, rfl⟩

/-- An entry before others. -/
theorem Takes.entries {ls more : List Lexeme} {d : Document} {ds : List Document}
    {rest : List Lexeme}
    (h : Takes parseValue ls d (.comma :: more)) (hmore : Takes parseEntries more ds rest) :
    Takes parseEntries ls (d :: ds) rest := by
  obtain ⟨hshorter, hd⟩ := h
  obtain ⟨hshorter', hds⟩ := hmore
  rw [Takes, parseEntries, hd]
  dsimp only [bind, Except.bind]
  rw [hds]
  exact ⟨_, rfl⟩

/-- A last field. -/
theorem Takes.field {ls left : List Lexeme} {key : String} {d : Document} {rest : List Lexeme}
    (hkey : Takes parseKey ls key left) (h : Takes parseValue left d (.closeBrace :: rest)) :
    Takes parseFields ls [(key, d)] rest := by
  obtain ⟨hshorter, hk⟩ := hkey
  obtain ⟨hshorter', hd⟩ := h
  rw [Takes, parseFields, hk]
  dsimp only [bind, Except.bind]
  rw [hd]
  exact ⟨_, rfl⟩

/-- A field before others. -/
theorem Takes.fields {ls left more : List Lexeme} {key : String} {d : Document} {fields : Fields}
    {rest : List Lexeme} (hkey : Takes parseKey ls key left)
    (h : Takes parseValue left d (.comma :: more))
    (hmore : Takes parseFields more fields rest) :
    Takes parseFields ls ((key, d) :: fields) rest := by
  obtain ⟨hshorter, hk⟩ := hkey
  obtain ⟨hshorter', hd⟩ := h
  obtain ⟨hshorter'', hfields⟩ := hmore
  rw [Takes, parseFields, hk]
  dsimp only [bind, Except.bind]
  rw [hd]
  dsimp only
  rw [hfields]
  exact ⟨_, rfl⟩

/-- An array with entries, which do not begin with a closing bracket. -/
theorem Takes.array {ls : List Lexeme} {ds : List Document} {rest : List Lexeme}
    (h : Takes parseEntries ls ds rest) (hopen : ∀ more, ls ≠ .closeBracket :: more) :
    Takes parseValue (.openBracket :: ls) (.array ds) rest := by
  obtain ⟨hshorter, hds⟩ := h
  rw [Takes, parseValue, hds]
  · exact ⟨_, rfl⟩
  · exact hopen

/-- An object with fields, which do not begin with a closing brace. -/
theorem Takes.object {ls : List Lexeme} {fields : Fields} {rest : List Lexeme}
    (h : Takes parseFields ls fields rest) (hopen : ∀ more, ls ≠ .closeBrace :: more) :
    Takes parseValue (.openBrace :: ls) (.object fields) rest := by
  obtain ⟨hshorter, hfields⟩ := h
  rw [Takes, parseValue, hfields]
  · exact ⟨_, rfl⟩
  · exact hopen

theorem entryLexemes_ne_closeBracket (d : Document) (ds : List Document) (rest more : List Lexeme) :
    entryLexemes (d :: ds) ++ rest ≠ .closeBracket :: more := by
  obtain ⟨l, ls, hd, hl, -⟩ := exists_lexemes_eq_cons d
  cases ds with
  | nil => simp [entryLexemes, hd, hl]
  | cons e ds => simp [entryLexemes, hd, hl]

theorem fieldLexemes_ne_closeBrace (f : String × Document) (fields : Fields)
    (rest more : List Lexeme) : fieldLexemes (f :: fields) ++ rest ≠ .closeBrace :: more := by
  cases fields <;> simp [fieldLexemes]

mutual

/-- A document is read from its lexemes, whatever follows them. -/
theorem takes_lexemes (d : Document) (rest : List Lexeme) :
    Takes parseValue (d.lexemes ++ rest) d rest := by
  cases d with
  | array entries =>
    cases entries with
    | nil =>
      rw [lexemes, entryLexemes, Takes]
      exact ⟨by simp +arith, by simp [parseValue]⟩
    | cons d ds =>
      have hds := takes_entryLexemes (d :: ds) (List.cons_ne_nil d ds) rest
      rw [lexemes, List.cons_append, List.append_assoc, List.singleton_append]
      exact hds.array (entryLexemes_ne_closeBracket d ds _)
  | object fields =>
    cases fields with
    | nil =>
      rw [lexemes, fieldLexemes, Takes]
      exact ⟨by simp +arith, by simp [parseValue]⟩
    | cons f fields =>
      have hfields := takes_fieldLexemes (f :: fields) (List.cons_ne_nil f fields) rest
      rw [lexemes, List.cons_append, List.append_assoc, List.singleton_append]
      exact hfields.object (fieldLexemes_ne_closeBrace f fields _)
  | _ =>
    rw [lexemes, Takes]
    exact ⟨by simp, by simp [parseValue]⟩
termination_by structural d

/-- Entries are read from their lexemes and the closing bracket. -/
theorem takes_entryLexemes (ds : List Document) (hne : ds ≠ []) (rest : List Lexeme) :
    Takes parseEntries (entryLexemes ds ++ .closeBracket :: rest) ds rest := by
  cases ds with
  | nil => exact absurd rfl hne
  | cons d ds =>
    cases ds with
    | nil =>
      rw [entryLexemes]
      exact (takes_lexemes d (.closeBracket :: rest)).entry
    | cons e ds =>
      have hne' := List.cons_ne_nil e ds
      have hd := takes_lexemes d (.comma :: (entryLexemes (e :: ds) ++ .closeBracket :: rest))
      rw [entryLexemes_cons d hne', List.append_assoc, List.cons_append]
      exact hd.entries (takes_entryLexemes (e :: ds) hne' rest)
termination_by structural ds

/-- Fields are read from their lexemes and the closing brace. -/
theorem takes_fieldLexemes (fields : Fields) (hne : fields ≠ []) (rest : List Lexeme) :
    Takes parseFields (fieldLexemes fields ++ .closeBrace :: rest) fields rest := by
  cases fields with
  | nil => exact absurd rfl hne
  | cons f fields =>
    obtain ⟨key, d⟩ := f
    cases fields with
    | nil =>
      rw [fieldLexemes, List.cons_append, List.cons_append]
      exact (takes_key key _).field (takes_lexemes d (.closeBrace :: rest))
    | cons g fields =>
      have hne' := List.cons_ne_nil g fields
      have hd := takes_lexemes d (.comma :: (fieldLexemes (g :: fields) ++ .closeBrace :: rest))
      rw [fieldLexemes_cons key d hne', List.cons_append, List.cons_append, List.append_assoc,
        List.cons_append]
      exact (takes_key key _).fields hd (takes_fieldLexemes (g :: fields) hne' rest)
termination_by structural fields

end

/-- A list of lexemes is read as a document exactly when it is the list of its lexemes. -/
theorem ofLexemes_ok_iff {ls : List Lexeme} {d : Document} :
    ofLexemes ls = .ok d ↔ ls = d.lexemes := by
  refine ⟨?_, ?_⟩
  · intro h
    rw [ofLexemes] at h
    obtain ⟨p, hp, h⟩ := ok_of_bind h
    have hform := (faithful ls.length).value rfl hp
    dsimp only at h
    split at h
    · next hrest =>
      cases h
      exact hform.trans (by rw [hrest, List.append_nil])
    · cases h
  · rintro rfl
    have htakes := takes_lexemes d []
    rw [List.append_nil] at htakes
    obtain ⟨_, hd⟩ := htakes
    rw [ofLexemes, hd]
    rfl

end Document

end PatternTree
