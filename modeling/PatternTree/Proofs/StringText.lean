import Mathlib.Data.List.Induction
import PatternTree.Document.Lexeme

/-!
# How quoted texts are written

Between quotes a character stands for itself, or it is written with a backslash: by the letter of an
escape, by the four hexadecimal digits of its code unit, or by those of the two code units of a
pair. `CharText` lists these ways, and `StringText` puts characters one behind the other.

The machine is compared with them character by character: `CharText.run` says that it reads a
character in each of its forms, and `CharText.run_cases` that it reads nothing else.
-/

namespace PatternTree

/-- Four hexadecimal digits and the code unit that they denote. -/
def IsCode (digits : List Char) (unit : Nat) : Prop :=
  digits.length = 4 ∧ hexValue? digits = some unit

/-- The ways to write a character between quotes. -/
inductive CharText : Char → List Char → Prop where
  /-- the character itself, unless it is a quote, a backslash or a control character -/
  | plain {c : Char} (quote : c ≠ '"') (backslash : c ≠ '\\') (control : 32 ≤ c.toNat) :
      CharText c [c]
  /-- the letter of an escape -/
  | escape {e c : Char} (letter : escaped? e = some c) : CharText c ['\\', e]
  /-- a code unit that is no half of a pair -/
  | code {ds : List Char} {unit : Nat} (code : IsCode ds unit) (lead : isLead unit = false)
      (trail : isTrail unit = false) : CharText (.ofNat unit) ('\\' :: 'u' :: ds)
  /-- a pair of code units -/
  | pair {ds es : List Char} {first second : Nat} (code : IsCode ds first)
      (lead : isLead first = true) (code' : IsCode es second) (trail : isTrail second = true) :
      CharText (.ofNat (0x10000 + (first - 0xD800) * 0x400 + (second - 0xDC00)))
        ('\\' :: 'u' :: ds ++ '\\' :: 'u' :: es)

/-- The ways to write a text between quotes. -/
inductive StringText : List Char → List Char → Prop where
  /-- no character -/
  | nil : StringText [] []
  /-- a character and those behind it -/
  | cons {c : Char} {text cs texts : List Char} (head : CharText c text)
      (tail : StringText cs texts) :
      StringText (c :: cs) (text ++ texts)

/-! ## Hexadecimal digits -/

theorem utf8Size_of_hexDigit {c : Char} {n : Nat} (h : hexDigit? c = some n) : c.utf8Size = 1 := by
  rw [Char.utf8Size_eq_one_iff]
  unfold hexDigit? at h
  split at h
  · next hdigit =>
    rw [Char.isDigit, Bool.and_eq_true, decide_eq_true_eq, decide_eq_true_eq] at hdigit
    exact UInt32.le_trans hdigit.2 (by decide)
  · split at h
    · next hlower => exact UInt32.le_trans (Char.le_def.mp hlower.2) (by decide)
    · split at h
      · next hupper => exact UInt32.le_trans (Char.le_def.mp hupper.2) (by decide)
      · cases h

theorem byteCount_concat (cs : List Char) (c : Char) :
    byteCount (cs ++ [c]) = byteCount cs + c.utf8Size := by
  rw [byteCount, List.foldl_append]
  rfl

theorem hexValue_concat (cs : List Char) (c : Char) :
    hexValue? (cs ++ [c]) = (hexValue? cs).bind fun n => (hexDigit? c).map (n * 16 + ·) := by
  simp [hexValue?]

/-- Digits that have a value take one byte each. -/
theorem byteCount_of_hexValue {cs : List Char} {n : Nat} (h : hexValue? cs = some n) :
    byteCount cs = cs.length := by
  induction cs using List.reverseRecOn generalizing n with
  | nil => rfl
  | append_singleton cs c ih =>
    rw [hexValue_concat, Option.bind_eq_some_iff] at h
    obtain ⟨m, hm, h⟩ := h
    obtain ⟨k, hk, -⟩ := Option.map_eq_some_iff.mp h
    rw [byteCount_concat, ih hm, utf8Size_of_hexDigit hk, List.length_append, List.length_singleton]

/-- The digits before the last ones have a value as well. -/
theorem exists_hexValue_of_append {cs ds : List Char} {n : Nat}
    (h : hexValue? (cs ++ ds) = some n) : ∃ m, hexValue? cs = some m := by
  rw [hexValue?, List.foldlM_append] at h
  obtain ⟨m, hm, -⟩ := Option.bind_eq_some_iff.mp h
  exact ⟨m, hm⟩

theorem length_le_byteCount (cs : List Char) : cs.length ≤ byteCount cs := by
  induction cs using List.reverseRecOn with
  | nil => exact Nat.le_refl 0
  | append_singleton cs c ih =>
    have hpos : 0 < c.utf8Size := c.utf8Size_pos
    rw [byteCount_concat, List.length_append, List.length_singleton]
    omega

/-! ## The machine in a quoted text -/

section

variable {phase phase' : StringPhase} {read read' cs : List Char} {c : Char}

theorem run_string_more (h : phase.step read c = .more phase' read') :
    (Scan.string phase read).run (c :: cs) = (Scan.string phase' read').run cs := by
  rw [Scan.run, Scan.step, h]
  rfl

theorem run_string_wrong (h : phase.step read c = .wrong) :
    (Scan.string phase read).run (c :: cs) = [.broken true .malformed] := by
  rw [Scan.run, Scan.step, h]

end

section

variable {first : Option Nat} {taken read : List Char}

theorem step_code_few {c : Char} (h : byteCount (taken ++ [c]) < 4) :
    (StringPhase.code first taken).step read c = .more (.code first (taken ++ [c])) read :=
  if_pos h

theorem step_code_full {c : Char} (h : ¬ byteCount (taken ++ [c]) < 4) {unit : Nat}
    (hunit : hexValue? (taken ++ [c]) = some unit) :
    (StringPhase.code first taken).step read c = stepUnit first unit read := by
  rw [StringPhase.step, if_neg h, hunit]

theorem step_code_wrong {c : Char} (h : ¬ byteCount (taken ++ [c]) < 4)
    (hunit : hexValue? (taken ++ [c]) = none) :
    (StringPhase.code first taken).step read c = .wrong := by
  rw [StringPhase.step, if_neg h, hunit]

/-- A code never ends the text. -/
theorem stepUnit_ne_done (first : Option Nat) (unit : Nat) (read : List Char) (value : String) :
    stepUnit first unit read ≠ .done value := by
  cases first with
  | none =>
    rw [stepUnit]
    cases isTrail unit <;> cases isLead unit <;> simp
  | some first =>
    rw [stepUnit]
    cases isTrail unit <;> simp

/-- The digits of a code are read, behind those that have been taken. -/
theorem run_digits {ds : List Char} {unit : Nat} (h : IsCode (taken ++ ds) unit) (hne : ds ≠ [])
    {phase : StringPhase} {read' : List Char} (hstep : stepUnit first unit read = .more phase read')
    (rest : List Char) :
    (Scan.string (.code first taken) read).run (ds ++ rest) =
      (Scan.string phase read').run rest := by
  induction ds generalizing taken with
  | nil => exact absurd rfl hne
  | cons d ds ih =>
    rw [List.append_cons] at h
    obtain ⟨m, hm⟩ := exists_hexValue_of_append h.2
    have hcount : byteCount (taken ++ [d]) = (taken ++ [d]).length := byteCount_of_hexValue hm
    have hlength : (taken ++ [d]).length + ds.length = 4 := by
      rw [← List.length_append]
      exact h.1
    rw [List.cons_append]
    cases ds with
    | nil =>
      rw [List.append_nil] at h
      have hfour : ¬ byteCount (taken ++ [d]) < 4 := by
        rw [List.length_nil] at hlength
        omega
      exact run_string_more ((step_code_full hfour h.2).trans hstep)
    | cons e ds =>
      have hfew : byteCount (taken ++ [d]) < 4 := by
        rw [List.length_cons] at hlength
        omega
      rw [run_string_more (step_code_few hfew)]
      exact ih h (List.cons_ne_nil e ds)

/-- A code is read. -/
theorem IsCode.run {ds : List Char} {unit : Nat} (h : IsCode ds unit) {phase : StringPhase}
    {read' : List Char} (hstep : stepUnit first unit read = .more phase read') (rest : List Char) :
    (Scan.string (.code first []) read).run (ds ++ rest) = (Scan.string phase read').run rest := by
  have hne : ds ≠ [] := by
    rintro rfl
    cases h.1
  rw [← List.nil_append ds] at h
  exact run_digits h hne hstep rest

/-- Behind the beginning of a code the text goes wrong, or the four digits are there. -/
theorem run_digits_cases (hfew : byteCount taken < 4) (cs : List Char) :
    (∃ problem, (Scan.string (.code first taken) read).run cs = [.broken true problem]) ∨
      ∃ ds unit phase read' rest, IsCode (taken ++ ds) unit ∧ cs = ds ++ rest ∧
        stepUnit first unit read = .more phase read' ∧
        (Scan.string (.code first taken) read).run cs = (Scan.string phase read').run rest := by
  induction cs generalizing taken with
  | nil => exact .inl ⟨.truncated, rfl⟩
  | cons c cs ih =>
    by_cases hcount : byteCount (taken ++ [c]) < 4
    · rw [run_string_more (step_code_few hcount)]
      refine (ih hcount).imp_right ?_
      rintro ⟨ds, unit, phase, read', rest, hcode, rfl, hstep, hrun⟩
      rw [← List.append_cons] at hcode
      exact ⟨c :: ds, unit, phase, read', rest, hcode, rfl, hstep, hrun⟩
    · cases hvalue : hexValue? (taken ++ [c]) with
      | none => exact .inl ⟨.malformed, run_string_wrong (step_code_wrong hcount hvalue)⟩
      | some unit =>
        have hstep : (StringPhase.code first taken).step read c = stepUnit first unit read :=
          step_code_full hcount hvalue
        -- fewer than four bytes before and four or more now, with one byte for each digit
        have hlength : (taken ++ [c]).length = 4 := by
          have htaken := length_le_byteCount taken
          have hbytes := byteCount_of_hexValue hvalue
          rw [List.length_append, List.length_singleton] at hbytes ⊢
          omega
        cases hunit : stepUnit first unit read with
        | more phase read' =>
          exact .inr ⟨[c], unit, phase, read', cs, ⟨hlength, hvalue⟩, rfl, hunit,
            run_string_more (hstep.trans hunit)⟩
        | done value => exact absurd hunit (stepUnit_ne_done first unit read value)
        | wrong => exact .inl ⟨.malformed, run_string_wrong (hstep.trans hunit)⟩

theorem IsCode.run_cases (cs : List Char) :
    (∃ problem, (Scan.string (.code first []) read).run cs = [.broken true problem]) ∨
      ∃ ds unit phase read' rest, IsCode ds unit ∧ cs = ds ++ rest ∧
        stepUnit first unit read = .more phase read' ∧
        (Scan.string (.code first []) read).run cs = (Scan.string phase read').run rest := by
  have hfew : byteCount [] < 4 := by decide
  exact run_digits_cases hfew cs

end

/-! ## Characters -/

theorem step_plain {read : List Char} {c : Char} (quote : c ≠ '"') (backslash : c ≠ '\\')
    (control : 32 ≤ c.toNat) : StringPhase.plain.step read c = .more .plain (c :: read) := by
  rw [StringPhase.step, if_neg quote, if_neg backslash, if_neg (Nat.not_lt.mpr control)]

theorem step_escape {read : List Char} {e c : Char} (letter : escaped? e = some c) :
    StringPhase.escape.step read e = .more .plain (c :: read) := by
  have hletter : e ≠ 'u' := by
    rintro rfl
    cases letter
  rw [StringPhase.step, if_neg hletter, letter]

theorem isTrail_of_isLead {unit : Nat} (h : isLead unit = true) : isTrail unit = false := by
  simp only [isLead, Bool.and_eq_true, decide_eq_true_eq] at h
  simp only [isTrail, Bool.and_eq_false_iff, decide_eq_false_iff_not]
  omega

/-- What a code does that stands by itself or begins a pair. -/
theorem stepUnit_none_more {unit : Nat} {read read' : List Char} {phase : StringPhase}
    (h : stepUnit none unit read = .more phase read') :
    isLead unit = true ∧ phase = .lead unit ∧ read' = read ∨
      isLead unit = false ∧ isTrail unit = false ∧ phase = .plain ∧
        read' = .ofNat unit :: read := by
  rw [stepUnit] at h
  cases htrail : isTrail unit with
  | true =>
    rw [htrail] at h
    cases h
  | false =>
    rw [htrail] at h
    cases hlead : isLead unit with
    | true =>
      rw [hlead] at h
      cases h
      exact .inl ⟨rfl, rfl, rfl⟩
    | false =>
      rw [hlead] at h
      cases h
      exact .inr ⟨rfl, rfl, rfl, rfl⟩

/-- What a code does that ends a pair. -/
theorem stepUnit_some_more {first unit : Nat} {read read' : List Char} {phase : StringPhase}
    (h : stepUnit (some first) unit read = .more phase read') :
    isTrail unit = true ∧ phase = .plain ∧
      read' = .ofNat (0x10000 + (first - 0xD800) * 0x400 + (unit - 0xDC00)) :: read := by
  rw [stepUnit] at h
  cases htrail : isTrail unit with
  | true =>
    rw [htrail] at h
    cases h
    exact ⟨rfl, rfl, rfl⟩
  | false =>
    rw [htrail] at h
    cases h

/-- A character is read in each of its forms. -/
theorem CharText.run {c : Char} {text : List Char} (h : CharText c text) (read rest : List Char) :
    (Scan.string .plain read).run (text ++ rest) = (Scan.string .plain (c :: read)).run rest := by
  cases h with
  | plain quote backslash control => exact run_string_more (step_plain quote backslash control)
  | escape letter =>
    rw [List.cons_append, List.singleton_append, run_string_more rfl]
    exact run_string_more (step_escape letter)
  | @code ds unit code lead trail =>
    have hunit : stepUnit none unit read = .more .plain (.ofNat unit :: read) := by
      rw [stepUnit, lead, trail]
      rfl
    rw [List.cons_append, List.cons_append, run_string_more rfl, run_string_more rfl]
    exact code.run hunit rest
  | @pair ds es first second code lead code' trail =>
    have hfirst : stepUnit none first read = .more (.lead first) read := by
      rw [stepUnit, lead, isTrail_of_isLead lead]
      rfl
    have hsecond : stepUnit (some first) second read = .more .plain
        (.ofNat (0x10000 + (first - 0xD800) * 0x400 + (second - 0xDC00)) :: read) := by
      rw [stepUnit, trail]
      rfl
    rw [List.append_assoc, List.cons_append, List.cons_append, run_string_more rfl,
      run_string_more rfl, code.run hfirst, List.cons_append, List.cons_append, run_string_more rfl,
      run_string_more rfl]
    exact code'.run hsecond rest

/-- Behind the first code of a pair the text goes wrong, or the second is there. -/
theorem run_lead_cases (first : Nat) (read cs : List Char) :
    (∃ problem, (Scan.string (.lead first) read).run cs = [.broken true problem]) ∨
      ∃ es second rest, IsCode es second ∧ isTrail second = true ∧ cs = '\\' :: 'u' :: es ++ rest ∧
        (Scan.string (.lead first) read).run cs = (Scan.string .plain
          (.ofNat (0x10000 + (first - 0xD800) * 0x400 + (second - 0xDC00)) :: read)).run rest := by
  cases cs with
  | nil => exact .inl ⟨.truncated, rfl⟩
  | cons c cs =>
    by_cases hbackslash : c = '\\'
    · subst hbackslash
      rw [run_string_more rfl]
      cases cs with
      | nil => exact .inl ⟨.truncated, rfl⟩
      | cons u cs =>
        by_cases hletter : u = 'u'
        · subst hletter
          rw [run_string_more rfl]
          refine (IsCode.run_cases cs).imp_right ?_
          rintro ⟨es, second, phase, read', rest, hcode, rfl, hstep, hrun⟩
          obtain ⟨htrail, rfl, rfl⟩ := stepUnit_some_more hstep
          exact ⟨es, second, rest, hcode, htrail, rfl, hrun⟩
        · exact .inl ⟨.malformed, run_string_wrong (if_neg hletter)⟩
    · exact .inl ⟨.malformed, run_string_wrong (if_neg hbackslash)⟩

/-- Behind a backslash the text goes wrong, or the rest of the character is there. -/
theorem run_escape_cases (read cs : List Char) :
    (∃ problem, (Scan.string .escape read).run cs = [.broken true problem]) ∨
      ∃ c text rest, CharText c ('\\' :: text) ∧ cs = text ++ rest ∧
        (Scan.string .escape read).run cs = (Scan.string .plain (c :: read)).run rest := by
  cases cs with
  | nil => exact .inl ⟨.truncated, rfl⟩
  | cons e cs =>
    by_cases hletter : e = 'u'
    · subst hletter
      rw [run_string_more rfl]
      rcases IsCode.run_cases cs with
        hwrong | ⟨ds, unit, phase, read', rest, hcode, rfl, hstep, hrun⟩
      · exact .inl hwrong
      rw [hrun]
      rcases stepUnit_none_more hstep with ⟨hlead, rfl, rfl⟩ | ⟨hlead, htrail, rfl, rfl⟩
      · refine (run_lead_cases unit read' rest).imp_right ?_
        rintro ⟨es, second, rest, hcode', htrail, rfl, hrun⟩
        refine ⟨_, 'u' :: ds ++ '\\' :: 'u' :: es, rest, .pair hcode hlead hcode' htrail, ?_, hrun⟩
        simp
      · exact .inr ⟨_, 'u' :: ds, rest, .code hcode hlead htrail, rfl, rfl⟩
    · cases hescaped : escaped? e with
      | none =>
        refine .inl ⟨.malformed, run_string_wrong ?_⟩
        rw [StringPhase.step, if_neg hletter, hescaped]
      | some c =>
        exact .inr ⟨c, [e], cs, .escape hescaped, rfl, run_string_more (step_escape hescaped)⟩

/-- A quoted text goes wrong, or it ends, or its next character is written in one of the forms. -/
theorem CharText.run_cases (read cs : List Char) :
    (∃ problem, (Scan.string .plain read).run cs = [.broken true problem]) ∨
      (∃ rest, cs = '"' :: rest ∧
        (Scan.string .plain read).run cs =
          .string (.ofList read.reverse) :: Scan.between.run rest) ∨
      ∃ c text rest, CharText c text ∧ cs = text ++ rest ∧
        (Scan.string .plain read).run cs = (Scan.string .plain (c :: read)).run rest := by
  cases cs with
  | nil => exact .inl ⟨.truncated, rfl⟩
  | cons c cs =>
    by_cases hquote : c = '"'
    · subst hquote
      exact .inr (.inl ⟨cs, rfl, rfl⟩)
    · by_cases hbackslash : c = '\\'
      · subst hbackslash
        rw [run_string_more rfl]
        refine (run_escape_cases read cs).imp_right fun h => .inr ?_
        obtain ⟨c, text, rest, hc, rfl, hrun⟩ := h
        exact ⟨c, '\\' :: text, rest, hc, rfl, hrun⟩
      · by_cases hcontrol : c.toNat < 32
        · refine .inl ⟨.malformed, run_string_wrong ?_⟩
          rw [StringPhase.step, if_neg hquote, if_neg hbackslash, if_pos hcontrol]
        · have hplain := Nat.not_lt.mp hcontrol
          exact .inr (.inr ⟨c, [c], cs, .plain hquote hbackslash hplain, rfl,
            run_string_more (step_plain hquote hbackslash hplain)⟩)

/-! ## Texts -/

/-- A quoted text is read up to the closing quote. -/
theorem StringText.run {cs text : List Char} (h : StringText cs text) (read rest : List Char) :
    (Scan.string .plain read).run (text ++ '"' :: rest) =
      .string (.ofList (read.reverse ++ cs)) :: Scan.between.run rest := by
  induction h generalizing read with
  | nil =>
    rw [List.append_nil]
    rfl
  | cons head tail ih => rw [List.append_assoc, head.run, ih, List.reverse_cons, ← List.append_cons]

theorem CharText.length_pos {c : Char} {text : List Char} (h : CharText c text) :
    0 < text.length := by
  cases h <;> simp

/-- A quoted text that has been begun goes wrong or is read to its end. -/
theorem StringText.run_cases (read cs : List Char) :
    (∃ problem, (Scan.string .plain read).run cs = [.broken true problem]) ∨
      ∃ chars text rest, StringText chars text ∧ cs = text ++ '"' :: rest ∧
        (Scan.string .plain read).run cs =
          .string (.ofList (read.reverse ++ chars)) :: Scan.between.run rest := by
  -- a character takes up to twelve others to write, so the induction is on the length
  induction hlength : cs.length using Nat.strongRecOn generalizing read cs with
  | ind n ih =>
    subst hlength
    rcases CharText.run_cases read cs with
      hwrong | ⟨rest, rfl, hrun⟩ | ⟨c, text, rest, hc, rfl, hrun⟩
    · exact .inl hwrong
    · refine .inr ⟨[], [], rest, .nil, rfl, ?_⟩
      rw [hrun, List.append_nil]
    · have hshorter : rest.length < (text ++ rest).length := by
        have hpos := hc.length_pos
        rw [List.length_append]
        omega
      rw [hrun]
      refine (ih _ hshorter (c :: read) rest rfl).imp_right ?_
      rintro ⟨chars, texts, left, htexts, rfl, hrest⟩
      refine ⟨c :: chars, text ++ texts, left, .cons hc htexts, by rw [List.append_assoc], ?_⟩
      rw [hrest, List.reverse_cons, ← List.append_cons]

end PatternTree
