import PatternTree.Proofs.Descent
import PatternTree.Proofs.NumberText
import PatternTree.Proofs.StringText

/-!
# The text of a document

A document is written as its lexemes one behind the other, with any blanks before, between and
behind them. `Lexeme.Written` says how each lexeme is written and `Spells` puts them together.

The machine that cuts a text into lexemes is compared with this in both directions.

* What it cuts without breaking off is what the text spells (`Spells.run_cases`).
* What a text spells is what it cuts (`Spells.run`). This needs that no number runs into what
  follows it, which holds in a document, where values always stand between marks (`Orderly`).

Together with the reader of lexemes this says what the text of a document is
(`Document.parse_ok_iff`, `Document.read_ok_iff`).
-/

namespace PatternTree

/-- The blanks. -/
def blanks : List Char :=
  [' ', '\n', '\t', '\r']

/-- The ways to write a lexeme. -/
inductive Lexeme.Written : Lexeme → List Char → Prop where
  /-- an opening brace -/
  | openBrace : Written .openBrace ['\x7b']
  /-- a closing brace -/
  | closeBrace : Written .closeBrace ['\x7d']
  /-- an opening bracket -/
  | openBracket : Written .openBracket ['[']
  /-- a closing bracket -/
  | closeBracket : Written .closeBracket [']']
  /-- a colon -/
  | colon : Written .colon [':']
  /-- a comma -/
  | comma : Written .comma [',']
  /-- the word for the null value -/
  | null : Written .null ['n', 'u', 'l', 'l']
  /-- the word for true -/
  | yes : Written (.bool true) ['t', 'r', 'u', 'e']
  /-- the word for false -/
  | no : Written (.bool false) ['f', 'a', 'l', 's', 'e']
  /-- a number that is not too large -/
  | number {t : NumberText} {v : Numeral} (wellFormed : t.WellFormed)
      (value : t.numeral? = some v) :
      Written (.number v) t.text
  /-- a text between quotes -/
  | string {cs text : List Char} (chars : StringText cs text) :
      Written (.string (.ofList cs)) ('"' :: text ++ ['"'])

/-- The texts that spell a list of lexemes. -/
inductive Spells : List Lexeme → List Char → Prop where
  /-- nothing -/
  | nil : Spells [] []
  /-- a blank -/
  | blank {ls : List Lexeme} {c : Char} {cs : List Char} (head : c ∈ blanks) (tail : Spells ls cs) :
      Spells ls (c :: cs)
  /-- a lexeme -/
  | lexeme {l : Lexeme} {ls : List Lexeme} {text cs : List Char} (head : l.Written text)
      (tail : Spells ls cs) : Spells (l :: ls) (text ++ cs)

/-! ## What is cut is spelled -/

theorem Lexeme.Written.length_pos {l : Lexeme} {text : List Char} (h : l.Written text) :
    0 < text.length := by
  cases h with
  | number wellFormed value => exact List.length_pos_iff.mpr wellFormed.text_ne_nil
  | _ => simp

/-- A word that has been begun goes wrong or is read to its end. -/
theorem run_word_cases (ds : List Char) (d : Char) (l : Lexeme) (cs : List Char) :
    (∃ problem, (Scan.word (d :: ds) l).run cs = [.broken false problem]) ∨
      ∃ rest, cs = d :: ds ++ rest ∧
        (Scan.word (d :: ds) l).run cs = l :: Scan.between.run rest := by
  induction ds generalizing d cs with
  | nil =>
    cases cs with
    | nil => exact .inl ⟨.truncated, rfl⟩
    | cons c cs =>
      by_cases hc : c = d
      · subst hc
        refine .inr ⟨cs, rfl, ?_⟩
        rw [Scan.run, Scan.step, if_pos rfl]
        rfl
      · refine .inl ⟨.malformed, ?_⟩
        rw [Scan.run, Scan.step, if_neg hc]
  | cons e ds ih =>
    cases cs with
    | nil => exact .inl ⟨.truncated, rfl⟩
    | cons c cs =>
      by_cases hc : c = d
      · subst hc
        have hrun :
            (Scan.word (c :: e :: ds) l).run (c :: cs) = (Scan.word (e :: ds) l).run cs := by
          rw [Scan.run, Scan.step, if_pos rfl]
          · rfl
          · simp
        rw [hrun]
        refine (ih e cs).imp_right ?_
        rintro ⟨rest, rfl, hrest⟩
        exact ⟨rest, rfl, hrest⟩
      · refine .inl ⟨.malformed, ?_⟩
        rw [Scan.run, Scan.step, if_neg hc]
        simp

/-- The text begins with a lexeme, or with something that goes wrong. -/
def Leads (cs : List Char) : Prop :=
  (∃ quoted problem, Scan.between.run cs = [.broken quoted problem]) ∨
    ∃ l text rest, Lexeme.Written l text ∧ cs = text ++ rest ∧
      Scan.between.run cs = l :: Scan.between.run rest

theorem leads_word {c d : Char} {ds : List Char} {l : Lexeme} (h : l.Written (c :: d :: ds))
    {cs : List Char}
    (hrun : Scan.between.run (c :: cs) = (Scan.word (d :: ds) l).run cs) : Leads (c :: cs) := by
  rcases run_word_cases ds d l cs with ⟨problem, hwrong⟩ | ⟨rest, rfl, hrest⟩
  · exact .inl ⟨false, problem, hrun.trans hwrong⟩
  · exact .inr ⟨l, c :: d :: ds, rest, h, rfl, hrun.trans hrest⟩

theorem leads_number {c : Char} {n : NumberScan} {t : NumberText} (h : NumberText.Reached n t)
    (htext : t.text = [c]) {cs : List Char}
    (hrun : Scan.between.run (c :: cs) = (Scan.number n).run cs) : Leads (c :: cs) := by
  rcases h.run_cases cs with ⟨problem, hwrong⟩ | ⟨t', v, rest, hwell, hv, hsplit, hrest⟩
  · exact .inl ⟨false, problem, hrun.trans hwrong⟩
  · rw [htext] at hsplit
    exact .inr ⟨.number v, t'.text, rest, .number hwell hv, hsplit, hrun.trans hrest⟩

theorem leads_string (cs : List Char) : Leads ('"' :: cs) := by
  have hrun : Scan.between.run ('"' :: cs) = (Scan.string .plain []).run cs := rfl
  rcases StringText.run_cases [] cs with ⟨problem, hwrong⟩ | ⟨chars, text, rest, htext, rfl, hrest⟩
  · exact .inl ⟨true, problem, hrun.trans hwrong⟩
  · refine .inr ⟨_, _, rest, .string htext, ?_, hrun.trans hrest⟩
    simp

/-- What stands at the front of a text, blanks apart, is a lexeme or goes wrong. -/
theorem leads {c : Char} (hblank : c ∉ blanks) (cs : List Char) : Leads (c :: cs) := by
  generalize hstep : Scan.begin c = step
  have hbegin := hstep
  unfold Scan.begin at hbegin
  split at hbegin
  · next h =>
    simp only [Scan.isBlank, Bool.or_eq_true, decide_eq_true_eq] at h
    exact absurd (by simpa [blanks, or_assoc] using h) hblank
  · split at hbegin
    · exact .inr ⟨.openBrace, _, cs, .openBrace, rfl, rfl⟩
    · exact .inr ⟨.closeBrace, _, cs, .closeBrace, rfl, rfl⟩
    · exact .inr ⟨.openBracket, _, cs, .openBracket, rfl, rfl⟩
    · exact .inr ⟨.closeBracket, _, cs, .closeBracket, rfl, rfl⟩
    · exact .inr ⟨.colon, _, cs, .colon, rfl, rfl⟩
    · exact .inr ⟨.comma, _, cs, .comma, rfl, rfl⟩
    · exact leads_string cs
    · exact leads_word .null rfl
    · exact leads_word .yes rfl
    · exact leads_word .no rfl
    · exact leads_number .minus rfl rfl
    · exact leads_number (.zero false) rfl rfl
    · next hzero =>
      split at hbegin
      · next hdigit =>
        have hhead : [c].head? ≠ some '0' := by simpa using hzero
        refine leads_number (.whole false (NumberText.digits_singleton hdigit) hhead) rfl ?_
        rw [Scan.run, Scan.step, NumberText.begin_digit hdigit hzero]
        rfl
      · -- nothing begins with any other character
        refine .inl ⟨false, .malformed, ?_⟩
        rw [Scan.run, Scan.step, hstep, ← hbegin]

theorem run_blank {c : Char} (h : c ∈ blanks) (cs : List Char) :
    Scan.between.run (c :: cs) = Scan.between.run cs := by
  simp only [blanks, List.mem_cons, List.not_mem_nil, or_false] at h
  rcases h with rfl | rfl | rfl | rfl <;> rfl

/-- A text is cut into the lexemes that it spells, unless one of them is broken. -/
theorem Spells.run_cases (cs : List Char) :
    (∃ quoted problem, .broken quoted problem ∈ Scan.between.run cs) ∨
      Spells (Scan.between.run cs) cs := by
  induction hlength : cs.length using Nat.strongRecOn generalizing cs with
  | ind n ih =>
    subst hlength
    cases cs with
    | nil => exact .inr .nil
    | cons c cs =>
      by_cases hblank : c ∈ blanks
      · rw [run_blank hblank]
        exact (ih cs.length (Nat.lt_succ_self _) cs rfl).imp_right (.blank hblank)
      · rcases leads hblank cs with ⟨quoted, problem, hrun⟩ | ⟨l, text, rest, hl, hsplit, hrun⟩
        · refine .inl ⟨quoted, problem, ?_⟩
          rw [hrun]
          exact List.mem_singleton.mpr rfl
        · rw [hrun]
          have hshorter : rest.length < (c :: cs).length := by
            have hpos := hl.length_pos
            rw [hsplit, List.length_append]
            omega
          rcases ih rest.length hshorter rest rfl with ⟨quoted, problem, hbroken⟩ | hrest
          · exact .inl ⟨quoted, problem, List.mem_cons_of_mem l hbroken⟩
          · rw [hsplit]
            exact .inr (.lexeme hl hrest)

/-! ## What is spelled is cut -/

namespace Lexeme

/-- Braces, brackets, colons and commas. -/
def isMark : Lexeme → Bool
  | .openBrace | .closeBrace | .openBracket | .closeBracket | .colon | .comma => true
  | .null | .bool _ | .number _ | .string _ | .broken _ _ => false

/-- Words, numbers and texts. -/
def isValue : Lexeme → Bool
  | .null | .bool _ | .number _ | .string _ => true
  | .openBrace | .closeBrace | .openBracket | .closeBracket | .colon | .comma | .broken _ _ => false

end Lexeme

/-- Values stand between marks, and nothing is broken. -/
inductive Orderly : List Lexeme → Prop where
  /-- nothing -/
  | nil : Orderly []
  /-- a mark, before anything -/
  | mark {l : Lexeme} {ls : List Lexeme} (head : l.isMark = true) (tail : Orderly ls) :
      Orderly (l :: ls)
  /-- a value, before a mark -/
  | value {l : Lexeme} {ls : List Lexeme} (head : l.isValue = true)
      (next : ∀ m ∈ ls.head?, m.isMark = true) (tail : Orderly ls) : Orderly (l :: ls)

theorem Orderly.not_broken {ls : List Lexeme} (h : Orderly ls) (quoted : Bool) (problem : Problem) :
    .broken quoted problem ∉ ls := by
  induction h with
  | nil => exact List.not_mem_nil
  | mark head tail ih =>
    rintro (_ | ⟨_, hmem⟩)
    · cases head
    · exact ih hmem
  | value head next tail ih =>
    rintro (_ | ⟨_, hmem⟩)
    · cases head
    · exact ih hmem

theorem Lexeme.Written.ends {l : Lexeme} {text : List Char} (h : l.Written text)
    (hmark : l.isMark = true) (rest : List Char) : NumberText.Ends (text ++ rest) := by
  intro c hc
  cases h with
  | null | yes | no | number | string => cases hmark
  | _ =>
    obtain rfl := Option.some.inj hc
    decide

/-- A number does not run into a mark, with or without blanks before it. -/
theorem Spells.ends {ls : List Lexeme} {cs : List Char} (h : Spells ls cs)
    (hmark : ∀ l ∈ ls.head?, l.isMark = true) : NumberText.Ends cs := by
  cases h with
  | nil => simp [NumberText.Ends]
  | blank head tail =>
    intro c hc
    obtain rfl := Option.some.inj hc
    simp only [blanks, List.mem_cons, List.not_mem_nil, or_false] at head
    rcases head with rfl | rfl | rfl | rfl <;> decide
  | lexeme head tail => exact head.ends (hmark _ rfl) _

/-- A lexeme is read in each of its forms, if it does not run into what follows. -/
theorem Lexeme.Written.run {l : Lexeme} {text : List Char} (h : l.Written text) {rest : List Char}
    (hends : l.isMark = true ∨ NumberText.Ends rest) :
    Scan.between.run (text ++ rest) = l :: Scan.between.run rest := by
  cases h with
  | number wellFormed value =>
    rcases hends with hmark | hends
    · cases hmark
    · exact NumberText.run_text wellFormed value hends
  | string chars =>
    rw [List.cons_append, List.cons_append, List.append_assoc]
    exact chars.run [] rest
  | _ => rfl

/-- A text is cut into the lexemes that it spells. -/
theorem Spells.run {ls : List Lexeme} {cs : List Char} (h : Spells ls cs) (horderly : Orderly ls) :
    Scan.between.run cs = ls := by
  induction h with
  | nil => rfl
  | blank head tail ih => rw [run_blank head, ih horderly]
  | lexeme head tail ih =>
    cases horderly with
    | mark hmark horderly => rw [head.run (.inl hmark), ih horderly]
    | value hvalue hnext horderly => rw [head.run (.inr (tail.ends hnext)), ih horderly]

/-! ## The lexemes of a document -/

namespace Document

mutual

/-- The lexemes of a document are in order, before a mark or at the end. -/
theorem orderly_lexemes (d : Document) {rest : List Lexeme} (hrest : Orderly rest)
    (hnext : ∀ m ∈ rest.head?, m.isMark = true) : Orderly (d.lexemes ++ rest) := by
  cases d with
  | array entries =>
    rw [lexemes, List.cons_append, List.append_assoc, List.singleton_append]
    exact .mark rfl (orderly_entryLexemes entries hrest)
  | object fields =>
    rw [lexemes, List.cons_append, List.append_assoc, List.singleton_append]
    exact .mark rfl (orderly_fieldLexemes fields hrest)
  | _ => exact .value rfl hnext hrest
termination_by structural d

/-- The lexemes of entries are in order, before a closing bracket. -/
theorem orderly_entryLexemes (ds : List Document) {rest : List Lexeme} (hrest : Orderly rest) :
    Orderly (entryLexemes ds ++ .closeBracket :: rest) := by
  cases ds with
  | nil => exact .mark rfl hrest
  | cons d ds =>
    cases ds with
    | nil =>
      rw [entryLexemes]
      exact orderly_lexemes d (.mark rfl hrest) (by simp [Lexeme.isMark])
    | cons e ds =>
      rw [entryLexemes_cons d (List.cons_ne_nil e ds), List.append_assoc, List.cons_append]
      exact orderly_lexemes d (.mark rfl (orderly_entryLexemes (e :: ds) hrest))
        (by simp [Lexeme.isMark])
termination_by structural ds

/-- The lexemes of fields are in order, before a closing brace. -/
theorem orderly_fieldLexemes (fields : Fields) {rest : List Lexeme} (hrest : Orderly rest) :
    Orderly (fieldLexemes fields ++ .closeBrace :: rest) := by
  cases fields with
  | nil => exact .mark rfl hrest
  | cons f fields =>
    obtain ⟨key, d⟩ := f
    cases fields with
    | nil =>
      have hvalue :=
        orderly_lexemes d (.mark (l := .closeBrace) rfl hrest) (by simp [Lexeme.isMark])
      rw [fieldLexemes]
      exact .value rfl (by simp [Lexeme.isMark]) (.mark rfl hvalue)
    | cons g fields =>
      have hfields := orderly_fieldLexemes (g :: fields) hrest
      have hvalue := orderly_lexemes d (.mark (l := .comma) rfl hfields) (by simp [Lexeme.isMark])
      rw [fieldLexemes_cons key d (List.cons_ne_nil g fields), List.cons_append, List.cons_append,
        List.append_assoc, List.cons_append]
      exact .value rfl (by simp [Lexeme.isMark]) (.mark rfl hvalue)
termination_by structural fields

end

/-- Lexemes that make up a document are cut from a text exactly when the text spells them. -/
theorem ofText_eq_lexemes_iff {s : String} {d : Document} :
    Lexeme.ofText s = d.lexemes ↔ Spells d.lexemes s.toList := by
  have horderly : Orderly d.lexemes := by
    rw [← List.append_nil d.lexemes]
    exact orderly_lexemes d .nil (by simp)
  refine ⟨?_, fun h => h.run horderly⟩
  intro h
  rw [Lexeme.ofText] at h
  rcases Spells.run_cases s.toList with ⟨quoted, problem, hbroken⟩ | hspells
  · rw [h] at hbroken
    exact absurd hbroken (horderly.not_broken quoted problem)
  · rwa [h] at hspells

/-- A document is read from a text exactly when the text spells its lexemes. -/
theorem parse_ok_iff {s : String} {d : Document} : parse s = .ok d ↔ Spells d.lexemes s.toList := by
  rw [parse, ofLexemes_ok_iff, ofText_eq_lexemes_iff]

/-- What a text denotes is the canonical form of the document that it spells. -/
theorem read_ok_iff {s : String} {value : Document} :
    read s = .ok value ↔ ∃ d : Document, Spells d.lexemes s.toList ∧ value = d.canonical := by
  refine ⟨?_, ?_⟩
  · intro h
    rw [read] at h
    cases hparse : parse s with
    | error problem =>
      rw [hparse] at h
      cases h
    | ok d =>
      rw [hparse] at h
      cases h
      exact ⟨d, parse_ok_iff.mp hparse, rfl⟩
  · rintro ⟨d, hspells, rfl⟩
    rw [read, parse_ok_iff.mpr hspells]
    rfl

end Document

end PatternTree
