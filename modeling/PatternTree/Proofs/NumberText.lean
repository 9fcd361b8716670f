import Mathlib.Data.List.Induction
import PatternTree.Document.Lexeme

/-!
# How numbers are written

A number is written as an optional minus sign, a whole part without needless zeros, an optional
fraction behind a point and an optional exponent behind its mark. `NumberText` holds these parts,
`NumberText.text` puts them together and `NumberText.numeral?` says which number they denote.

The machine that scans numbers is compared with this form in two steps.

* `NumberText.Reached` says which parts the machine has read in each of its phases. A character that
  belongs to the number extends them (`Reached.exists_step`), so that a complete number is well
  formed.
* A number that is well formed is read to its end (`NumberText.run_text`).
-/

namespace PatternTree

/-- The parts of a number as it is written. -/
structure NumberText where
  /-- there is a minus sign -/
  negative : Bool
  /-- the digits of the whole part -/
  whole : List Char
  /-- the digits of the fraction, if there is a point -/
  fraction : Option (List Char)
  /-- the mark of the exponent with its sign, and its digits, if there is one -/
  exponent : Option (List Char × List Char)

namespace NumberText

/-- One or more decimal digits. -/
def Digits (cs : List Char) : Prop :=
  cs ≠ [] ∧ ∀ c ∈ cs, c.isDigit = true

/-- A whole part is a zero, or digits of which the first is no zero. -/
def IsWhole (cs : List Char) : Prop :=
  cs = ['0'] ∨ Digits cs ∧ cs.head? ≠ some '0'

/-- The marks of an exponent, without and with a sign. -/
def marks : List (List Char) :=
  [['e'], ['E'], ['e', '+'], ['E', '+'], ['e', '-'], ['E', '-']]

/-- The parts are in order. -/
structure WellFormed (t : NumberText) : Prop where
  /-- the whole part has no needless zero -/
  whole : IsWhole t.whole
  /-- there are digits behind a point -/
  fraction : ∀ f ∈ t.fraction, Digits f
  /-- there are digits behind the mark of an exponent -/
  exponent : ∀ e ∈ t.exponent, e.1 ∈ marks ∧ Digits e.2

/-- The number as it is written. -/
def text (t : NumberText) : List Char :=
  (if t.negative then ['-'] else []) ++ t.whole ++ t.fraction.elim [] ('.' :: ·) ++
    t.exponent.elim [] fun e => e.1 ++ e.2

/-- The natural number that digits denote. -/
def value (cs : List Char) : Nat :=
  Nat.ofDigitChars 10 cs 0

/-- The power of ten that the exponent denotes. -/
def power (t : NumberText) : Int :=
  t.exponent.elim 0 fun e => if '-' ∈ e.1 then -value e.2 else value e.2

/-- The double nearest to the number, unless it is too large. -/
def real? (t : NumberText) : Option Numeral :=
  let fraction := t.fraction.getD []
  (Magnitude.ofDecimal? (value (t.whole ++ fraction)) (t.power - fraction.length)).map
  (.real t.negative ·)

/-- What the number denotes: an integer if it is written as one and fits into 64 bits, unsigned or
signed, and otherwise a double. Minus zero is a double. -/
def numeral? (t : NumberText) : Option Numeral :=
  if t.fraction.isNone ∧ t.exponent.isNone then
    if t.negative then
      if 0 < value t.whole ∧ value t.whole ≤ 0x8000000000000000 then
        some (.integer (-value t.whole))
      else t.real?
    else
      if value t.whole < 0x10000000000000000 then some (.integer (value t.whole)) else t.real?
  else t.real?

theorem value_concat (cs : List Char) (c : Char) :
    value (cs ++ [c]) = value cs * 10 + digitValue c := by
  rw [value, Nat.ofDigitChars_append, Nat.ofDigitChars_cons, Nat.ofDigitChars_nil, Nat.mul_comm]
  rfl

theorem Digits.concat {cs : List Char} (h : Digits cs) {c : Char} (hc : c.isDigit = true) :
    Digits (cs ++ [c]) := by
  refine ⟨by simp, ?_⟩
  intro x hx
  rcases List.mem_append.mp hx with hx | hx
  · exact h.2 x hx
  · rwa [List.mem_singleton.mp hx]

theorem digits_singleton {c : Char} (hc : c.isDigit = true) : Digits [c] :=
  ⟨by simp, by simpa using hc⟩

/-! ## What the machine has read -/

/-- The state of the machine in a phase, with a whole part and a fraction behind it. -/
def scan (phase : NumberPhase) (negative : Bool) (whole : List Char)
    (fraction : Option (List Char)) : NumberScan :=
  { phase, negative, digits := value (whole ++ fraction.getD []),
    places := (fraction.getD []).length }

/-- What has been read of a number in a state of the machine. -/
inductive Reached : NumberScan → NumberText → Prop where
  /-- a minus sign -/
  | minus : Reached (scan .minus true [] none) ⟨true, [], none, none⟩
  /-- a zero -/
  | zero (b : Bool) : Reached (scan .zero b ['0'] none) ⟨b, ['0'], none, none⟩
  /-- a whole part that may go on -/
  | whole (b : Bool) {w : List Char} (digits : Digits w) (head : w.head? ≠ some '0') :
      Reached (scan .whole b w none) ⟨b, w, none, none⟩
  /-- a point -/
  | point (b : Bool) {w : List Char} (whole : IsWhole w) :
      Reached (scan .point b w (some [])) ⟨b, w, some [], none⟩
  /-- a fraction -/
  | fraction (b : Bool) {w f : List Char} (whole : IsWhole w) (digits : Digits f) :
      Reached (scan .fraction b w (some f)) ⟨b, w, some f, none⟩
  /-- the mark of an exponent -/
  | mark (b : Bool) {w : List Char} {f : Option (List Char)} {m : Char} (whole : IsWhole w)
      (fraction : ∀ ds ∈ f, Digits ds) (mark : m = 'e' ∨ m = 'E') :
      Reached (scan .mark b w f) ⟨b, w, f, some ([m], [])⟩
  /-- the mark of an exponent with its sign -/
  | sign (b : Bool) {w : List Char} {f : Option (List Char)} {m : List Char} (whole : IsWhole w)
      (fraction : ∀ ds ∈ f, Digits ds) (mark : m ∈ marks) :
      Reached { scan .sign b w f with lowered := '-' ∈ m } ⟨b, w, f, some (m, [])⟩
  /-- an exponent -/
  | exponent (b : Bool) {w : List Char} {f : Option (List Char)} {m ds : List Char}
      (whole : IsWhole w) (fraction : ∀ ds ∈ f, Digits ds) (mark : m ∈ marks) (digits : Digits ds) :
      Reached { scan .exponent b w f with lowered := '-' ∈ m, power := value ds }
        ⟨b, w, f, some (m, ds)⟩

section

variable {p : NumberPhase} {b : Bool} {w : List Char} {f : Option (List Char)} {c : Char}

theorem pushWhole_scan : (scan p b w none).pushWhole c = scan .whole b (w ++ [c]) none := by
  simp [scan, NumberScan.pushWhole, value_concat]

theorem pushFraction_scan {ds : List Char} :
    (scan p b w (some ds)).pushFraction c = scan .fraction b w (some (ds ++ [c])) := by
  simp [scan, NumberScan.pushFraction, ← List.append_assoc, value_concat]

theorem pushPower_scan {l : Bool} (ds : List Char) :
    NumberScan.pushPower { scan p b w f with lowered := l, power := value ds } c =
      { scan .exponent b w f with lowered := l, power := value (ds ++ [c]) } := by
  simp [scan, NumberScan.pushPower, value_concat]

/-- A digit of an exponent, the first or a later one. -/
theorem reached_pushPower {m ds : List Char} (whole : IsWhole w) (fraction : ∀ ds ∈ f, Digits ds)
    (mark : m ∈ marks) (digits : ∀ x ∈ ds, x.isDigit = true) (hdigit : c.isDigit = true) :
    Reached (NumberScan.pushPower { scan p b w f with lowered := '-' ∈ m, power := value ds } c)
      ⟨b, w, f, some (m, ds ++ [c])⟩ := by
  have hdigits : Digits (ds ++ [c]) := by
    refine ⟨by simp, ?_⟩
    simpa [or_imp, forall_and] using ⟨digits, hdigit⟩
  rw [pushPower_scan]
  exact .exponent b whole fraction mark hdigits

/-- A point or the mark of an exponent, behind a whole part or a fraction. -/
theorem exists_reached_of_stepTail {point : Bool} {n : NumberScan} (whole : IsWhole w)
    (fraction : ∀ ds ∈ f, Digits ds) (hpoint : point = true → f = none)
    (h : (scan p b w f).stepTail point c = .more n) :
    ∃ t, Reached n t ∧ t.text = text ⟨b, w, f, none⟩ ++ [c] := by
  rw [NumberScan.stepTail] at h
  split at h
  · next hc =>
    obtain ⟨rfl, hp⟩ := hc
    obtain rfl := hpoint hp
    cases h
    exact ⟨⟨b, w, some [], none⟩, .point b whole, by simp [text]⟩
  · split at h
    · next hmark =>
      cases h
      exact ⟨⟨b, w, f, some ([c], [])⟩, .mark b whole fraction hmark, by simp [text]⟩
    · cases h

end

/-- A sign or the first digit of an exponent, behind its mark. -/
theorem exists_reached_of_mark {b : Bool} {w : List Char} {f : Option (List Char)} {m c : Char}
    {n : NumberScan} (whole : IsWhole w) (fraction : ∀ ds ∈ f, Digits ds) (mark : m = 'e' ∨ m = 'E')
    (h : (scan .mark b w f).step c = .more n) :
    ∃ t, Reached n t ∧ t.text = text ⟨b, w, f, some ([m], [])⟩ ++ [c] := by
  have hmark : [m] ∈ marks ∧ [m, '+'] ∈ marks ∧ [m, '-'] ∈ marks := by
    rcases mark with rfl | rfl <;> decide
  have hlowered : decide ('-' ∈ [m]) = false ∧ decide ('-' ∈ [m, '+']) = false ∧
      decide ('-' ∈ [m, '-']) = true := by
    rcases mark with rfl | rfl <;> decide
  change (if c = '+' then NumberStep.more (scan .sign b w f) else
    if c = '-' then NumberStep.more { scan .sign b w f with lowered := true } else
    if c.isDigit then NumberStep.more ((scan .mark b w f).pushPower c) else .wrong) = _ at h
  split at h
  · next hplus =>
    cases h
    have hsign := Reached.sign b whole fraction hmark.2.1
    rw [hlowered.2.1] at hsign
    exact ⟨_, hsign, by simp [text, hplus]⟩
  · split at h
    · next hminus =>
      cases h
      have hsign := Reached.sign b whole fraction hmark.2.2
      rw [hlowered.2.2] at hsign
      exact ⟨_, hsign, by simp [text, hminus]⟩
    · split at h
      · next hdigit =>
        cases h
        have hpower := reached_pushPower (p := .mark) (b := b) whole fraction hmark.1
          (List.forall_mem_nil _) hdigit
        rw [hlowered.1] at hpower
        exact ⟨_, hpower, by simp [text]⟩
      · cases h

/-- A character that belongs to the number extends what has been read. -/
theorem Reached.exists_step {n n' : NumberScan} {t : NumberText} {c : Char} (h : Reached n t)
    (hstep : n.step c = .more n') : ∃ t', Reached n' t' ∧ t'.text = t.text ++ [c] := by
  cases h with
  | minus =>
    change (if c = '0' then NumberStep.more (scan .zero true ['0'] none) else
      if c.isDigit then NumberStep.more ((scan .minus true [] none).pushWhole c)
      else .wrong) = _ at hstep
    split at hstep
    · next hzero =>
      cases hstep
      exact ⟨⟨true, ['0'], none, none⟩, .zero true, by rw [hzero]; rfl⟩
    · next hzero =>
      split at hstep
      · next hdigit =>
        cases hstep
        rw [pushWhole_scan]
        exact ⟨⟨true, [c], none, none⟩,
          .whole true (digits_singleton hdigit) (by simpa using hzero), rfl⟩
      · cases hstep
  | zero b =>
    -- no digit may follow a zero
    change (if c.isDigit then NumberStep.wrong
      else (scan .zero b ['0'] none).stepTail true c) = _ at hstep
    split at hstep
    · cases hstep
    · exact exists_reached_of_stepTail (.inl rfl) (by simp) (fun _ => rfl) hstep
  | @whole b w digits head =>
    change (if c.isDigit then NumberStep.more ((scan .whole b w none).pushWhole c)
      else (scan .whole b w none).stepTail true c) = _ at hstep
    split at hstep
    · next hdigit =>
      cases hstep
      rw [pushWhole_scan]
      have hhead : (w ++ [c]).head? ≠ some '0' := by
        cases w with
        | nil => exact absurd rfl digits.1
        | cons d w => exact head
      exact ⟨⟨b, w ++ [c], none, none⟩, .whole b (digits.concat hdigit) hhead, by simp [text]⟩
    · exact exists_reached_of_stepTail (.inr ⟨digits, head⟩) (by simp) (fun _ => rfl) hstep
  | @point b w whole =>
    change (if c.isDigit then NumberStep.more ((scan .point b w (some [])).pushFraction c)
      else .wrong) = _ at hstep
    split at hstep
    · next hdigit =>
      cases hstep
      rw [pushFraction_scan]
      exact ⟨⟨b, w, some [c], none⟩, .fraction b whole (digits_singleton hdigit), by simp [text]⟩
    · cases hstep
  | @fraction b w f whole digits =>
    change (if c.isDigit then NumberStep.more ((scan .fraction b w (some f)).pushFraction c)
      else (scan .fraction b w (some f)).stepTail false c) = _ at hstep
    split at hstep
    · next hdigit =>
      cases hstep
      rw [pushFraction_scan]
      exact ⟨⟨b, w, some (f ++ [c]), none⟩, .fraction b whole (digits.concat hdigit),
        by simp [text]⟩
    · exact exists_reached_of_stepTail whole (by simpa using digits) (by simp) hstep
  | @mark b w f m whole fraction mark => exact exists_reached_of_mark whole fraction mark hstep
  | @sign b w f m whole fraction mark =>
    change (if c.isDigit then NumberStep.more (NumberScan.pushPower
      { scan .sign b w f with lowered := '-' ∈ m, power := value [] } c) else .wrong) = _ at hstep
    split at hstep
    · next hdigit =>
      cases hstep
      exact ⟨⟨b, w, f, some (m, [c])⟩,
        reached_pushPower whole fraction mark (List.forall_mem_nil _) hdigit, by simp [text]⟩
    · cases hstep
  | @exponent b w f m ds whole fraction mark digits =>
    change (if c.isDigit then NumberStep.more (NumberScan.pushPower
        { scan .exponent b w f with lowered := '-' ∈ m, power := value ds } c)
      else .done) = _ at hstep
    split at hstep
    · next hdigit =>
      cases hstep
      exact ⟨⟨b, w, f, some (m, ds ++ [c])⟩, reached_pushPower whole fraction mark digits.2 hdigit,
        by simp [text]⟩
    · cases hstep

/-- A number that may end is well formed, and denotes what the machine says. -/
theorem Reached.wellFormed {n : NumberScan} {t : NumberText} (h : Reached n t)
    (hcomplete : n.isComplete = true) : t.WellFormed ∧ n.numeral? = t.numeral? := by
  cases h with
  | minus => cases hcomplete
  | zero b =>
    refine ⟨⟨.inl rfl, by simp, by simp⟩, ?_⟩
    cases b <;> rfl
  | whole b digits head =>
    refine ⟨⟨.inr ⟨digits, head⟩, by simp, by simp⟩, ?_⟩
    cases b <;> simp [scan, NumberScan.numeral?, numeral?, NumberScan.real?, real?, power]
  | point b whole => cases hcomplete
  | fraction b whole digits =>
    refine ⟨⟨whole, by simpa using digits, by simp⟩, ?_⟩
    cases b <;> simp [scan, NumberScan.numeral?, numeral?, NumberScan.real?, real?, power]
  | mark b whole fraction mark => cases hcomplete
  | sign b whole fraction mark => cases hcomplete
  | exponent b whole fraction mark digits =>
    refine ⟨⟨whole, fraction, by simpa using ⟨mark, digits⟩⟩, ?_⟩
    cases b <;> simp [scan, NumberScan.numeral?, numeral?, NumberScan.real?, real?, power]

/-! ## Reading to the end -/

/-- The machine gets from the beginning of a lexeme over a text into a state of a number. -/
def Reaches (cs : List Char) (n : NumberScan) : Prop :=
  ∀ rest, Scan.between.run (cs ++ rest) = (Scan.number n).run rest

theorem Reaches.concat {cs : List Char} {c : Char} {n n' : NumberScan} (h : Reaches cs n)
    (hstep : n.step c = .more n') : Reaches (cs ++ [c]) n' := by
  intro rest
  rw [List.append_assoc, List.singleton_append, h, Scan.run, Scan.step, hstep]
  rfl

theorem Digits.induction {P : List Char → Prop} (one : ∀ c, c.isDigit = true → P [c])
    (more : ∀ ds c, Digits ds → c.isDigit = true → P ds → P (ds ++ [c])) {ds : List Char}
    (h : Digits ds) : P ds := by
  obtain ⟨hne, hdigits⟩ := h
  induction ds using List.reverseRecOn with
  | nil => exact absurd rfl hne
  | append_singleton ds c ih =>
    rw [List.forall_mem_append] at hdigits
    have hc : c.isDigit = true := hdigits.2 c (by simp)
    by_cases hds : ds = []
    · rw [hds]
      exact one c hc
    · exact more ds c ⟨hds, hdigits.1⟩ hc (ih hds hdigits.1)

theorem begin_digit {c : Char} (hdigit : c.isDigit = true) (hzero : c ≠ '0') :
    Scan.begin c = .next [] (.number (scan .whole false [c] none)) := by
  unfold Scan.begin
  split
  · next hblank =>
    simp only [Scan.isBlank, Bool.or_eq_true, decide_eq_true_eq] at hblank
    rcases hblank with ((rfl | rfl) | rfl) | rfl <;> cases hdigit
  · split
    case h_12 => exact absurd rfl hzero
    case h_13 =>
      have hvalue : digitValue c = value [c] := by
        rw [← List.nil_append [c], value_concat]
        exact (Nat.zero_add _).symm
      rw [if_pos hdigit, hvalue]
      rfl
    all_goals cases hdigit

section

variable {p : NumberPhase} {b : Bool} {w cs : List Char} {f : Option (List Char)}

/-- The whole part, behind the sign. -/
theorem exists_reaches_whole (b : Bool) (whole : IsWhole w) :
    ∃ p, (p = .zero ∨ p = .whole) ∧ Reached (scan p b w none) ⟨b, w, none, none⟩ ∧
      Reaches ((if b then ['-'] else []) ++ w) (scan p b w none) := by
  have hminus : Reaches ['-'] (scan .minus true [] none) := fun rest => rfl
  rcases whole with rfl | ⟨digits, head⟩
  · refine ⟨.zero, .inl rfl, .zero b, ?_⟩
    cases b with
    | true => exact hminus.concat rfl
    | false => exact fun rest => rfl
  · refine ⟨.whole, .inr rfl, .whole b digits head, ?_⟩
    refine Digits.induction (P := fun ds => ds.head? ≠ some '0' →
      Reaches ((if b then ['-'] else []) ++ ds) (scan .whole b ds none)) ?_ ?_ digits head
    · intro c hdigit hzero
      rw [List.head?_cons, ne_eq, Option.some.injEq] at hzero
      cases b with
      | true =>
        refine hminus.concat ?_
        change (if c = '0' then _ else if c.isDigit then
          NumberStep.more ((scan .minus true [] none).pushWhole c) else .wrong) = _
        rw [if_neg hzero, if_pos hdigit, pushWhole_scan]
        rfl
      | false =>
        intro rest
        rw [if_neg Bool.false_ne_true, List.nil_append, List.singleton_append, Scan.run, Scan.step,
          begin_digit hdigit hzero]
        rfl
    · intro ds c digits hdigit ih head
      have hhead : ds.head? ≠ some '0' := by
        cases ds with
        | nil => exact absurd rfl digits.1
        | cons d ds => exact head
      rw [← List.append_assoc]
      refine (ih hhead).concat ?_
      change (if c.isDigit then NumberStep.more ((scan .whole b ds none).pushWhole c) else _) = _
      rw [if_pos hdigit, pushWhole_scan]

/-- A fraction, behind the whole part. -/
theorem Reaches.fraction (h : Reaches cs (scan p b w none)) (hp : p = .zero ∨ p = .whole)
    {ds : List Char}
    (digits : Digits ds) : Reaches (cs ++ '.' :: ds) (scan .fraction b w (some ds)) := by
  have hpoint : Reaches (cs ++ ['.']) (scan .point b w (some [])) := by
    refine h.concat ?_
    rcases hp with rfl | rfl <;> rfl
  rw [← List.singleton_append, ← List.append_assoc]
  refine Digits.induction
    (P := fun ds => Reaches (cs ++ ['.'] ++ ds) (scan .fraction b w (some ds))) ?_ ?_
    digits
  · intro c hdigit
    refine hpoint.concat ?_
    change (if c.isDigit then NumberStep.more ((scan .point b w (some [])).pushFraction c)
      else _) = _
    rw [if_pos hdigit, pushFraction_scan]
    rfl
  · intro ds c _ hdigit ih
    rw [← List.append_assoc]
    refine ih.concat ?_
    change (if c.isDigit then NumberStep.more ((scan .fraction b w (some ds)).pushFraction c)
      else _) = _
    rw [if_pos hdigit, pushFraction_scan]

/-- The mark of an exponent, behind the whole part or the fraction. -/
theorem Reaches.mark (h : Reaches cs (scan p b w f)) (hp : p = .zero ∨ p = .whole ∨ p = .fraction)
    {m : List Char} (mark : m ∈ marks) :
    ∃ q, (q = .mark ∨ q = .sign) ∧ Reaches (cs ++ m) { scan q b w f with lowered := '-' ∈ m } := by
  have hletter {x : Char} (hx : x = 'e' ∨ x = 'E') : Reaches (cs ++ [x]) (scan .mark b w f) := by
    refine h.concat ?_
    rcases hp with rfl | rfl | rfl <;> rcases hx with rfl | rfl <;> rfl
  have hsign {x s : Char} (hx : x = 'e' ∨ x = 'E') (hs : s = '+' ∨ s = '-') :
      Reaches (cs ++ [x, s]) { scan .sign b w f with lowered := s = '-' } := by
    rw [← List.singleton_append, ← List.append_assoc]
    refine (hletter hx).concat ?_
    rcases hs with rfl | rfl <;> rfl
  simp only [marks, List.mem_cons, List.not_mem_nil, or_false] at mark
  rcases mark with rfl | rfl | rfl | rfl | rfl | rfl
  · exact ⟨.mark, .inl rfl, hletter (.inl rfl)⟩
  · exact ⟨.mark, .inl rfl, hletter (.inr rfl)⟩
  · exact ⟨.sign, .inr rfl, hsign (.inl rfl) (.inl rfl)⟩
  · exact ⟨.sign, .inr rfl, hsign (.inr rfl) (.inl rfl)⟩
  · exact ⟨.sign, .inr rfl, hsign (.inl rfl) (.inr rfl)⟩
  · exact ⟨.sign, .inr rfl, hsign (.inr rfl) (.inr rfl)⟩

/-- An exponent, behind the whole part or the fraction. -/
theorem Reaches.exponent (h : Reaches cs (scan p b w f))
    (hp : p = .zero ∨ p = .whole ∨ p = .fraction)
    {m ds : List Char} (mark : m ∈ marks) (digits : Digits ds) :
    Reaches (cs ++ m ++ ds)
      { scan .exponent b w f with lowered := '-' ∈ m, power := value ds } := by
  refine Digits.induction (P := fun ds => Reaches (cs ++ m ++ ds)
    { scan .exponent b w f with lowered := '-' ∈ m, power := value ds }) ?_ ?_ digits
  · intro c hdigit
    obtain ⟨q, hq, hmark⟩ := h.mark hp mark
    refine hmark.concat ?_
    have hpush :=
      pushPower_scan (p := q) (b := b) (w := w) (f := f) (c := c) (l := decide ('-' ∈ m)) []
    have hplus : c ≠ '+' := by
      rintro rfl
      cases hdigit
    have hminus : c ≠ '-' := by
      rintro rfl
      cases hdigit
    rw [List.nil_append] at hpush
    rw [← hpush]
    rcases hq with rfl | rfl
    · exact (if_neg hplus).trans ((if_neg hminus).trans (if_pos hdigit))
    · exact if_pos hdigit
  · intro ds c _ hdigit ih
    rw [← List.append_assoc]
    refine ih.concat ?_
    rw [← pushPower_scan]
    exact if_pos hdigit

end

/-- A number that is well formed is read to its end. -/
theorem WellFormed.exists_reaches {t : NumberText} (h : t.WellFormed) :
    ∃ n, Reached n t ∧ n.isComplete = true ∧ Reaches t.text n := by
  obtain ⟨b, w, f, e⟩ := t
  obtain ⟨p, hp, hreached, hwhole⟩ := exists_reaches_whole b h.whole
  -- the fraction comes first, so that an exponent finds it read in either case
  have hfraction : ∃ p, (p = .zero ∨ p = .whole ∨ p = .fraction) ∧
      Reached (scan p b w f) ⟨b, w, f, none⟩ ∧ Reaches (text ⟨b, w, f, none⟩) (scan p b w f) := by
    cases f with
    | none =>
      rw [text, Option.elim_none, Option.elim_none, List.append_nil, List.append_nil]
      exact ⟨p, hp.imp_right .inl, hreached, hwhole⟩
    | some ds =>
      have digits := h.fraction ds rfl
      rw [text, Option.elim_none, Option.elim_some, List.append_nil]
      exact ⟨.fraction, .inr (.inr rfl), .fraction b h.whole digits, hwhole.fraction hp digits⟩
  obtain ⟨q, hq, hreached', hreaches⟩ := hfraction
  cases e with
  | none =>
    refine ⟨_, hreached', ?_, hreaches⟩
    rcases hq with rfl | rfl | rfl <;> rfl
  | some e =>
    obtain ⟨m, ds⟩ := e
    obtain ⟨mark, digits⟩ := h.exponent (m, ds) rfl
    refine ⟨_, .exponent b h.whole h.fraction mark digits, rfl, ?_⟩
    have hexponent := hreaches.exponent hq mark digits
    simpa [text] using hexponent

/-- What cannot belong to a number that is complete. -/
def Ends (rest : List Char) : Prop :=
  ∀ c ∈ rest.head?, c.isDigit = false ∧ c ≠ '.' ∧ c ≠ 'e' ∧ c ≠ 'E'

theorem step_of_isComplete {n : NumberScan} {c : Char} (h : n.isComplete = true)
    (hdigit : c.isDigit = false)
    (hpoint : c ≠ '.') (hmark : c ≠ 'e' ∧ c ≠ 'E') : n.step c = .done := by
  have htail (point : Bool) : n.stepTail point c = .done := by
    simp [NumberScan.stepTail, hpoint, hmark]
  rw [NumberScan.isComplete] at h
  rw [NumberScan.step]
  split at h
  all_goals simp_all

theorem isComplete_of_step {n : NumberScan} {c : Char} (h : n.step c = .done) :
    n.isComplete = true := by
  rw [NumberScan.step] at h
  rw [NumberScan.isComplete]
  split at h
  all_goals grind

/-- A number that is complete ends before a character that cannot belong to it. -/
theorem run_of_step {n : NumberScan} {v : Numeral} (hv : n.numeral? = some v) {c : Char}
    {cs : List Char} (h : n.step c = .done) :
    (Scan.number n).run (c :: cs) = .number v :: Scan.between.run (c :: cs) := by
  have hlexeme : n.lexeme = .number v := by
    rw [NumberScan.lexeme, hv]
  rw [Scan.run, Scan.step, h, Scan.run, Scan.step]
  dsimp only
  rw [Scan.endNumber, hv, hlexeme]
  dsimp only
  cases Scan.begin c <;> rfl

/-- A number is read as what it denotes, if nothing follows that might belong to it. -/
theorem run_text {t : NumberText} (h : t.WellFormed) {v : Numeral} (hv : t.numeral? = some v)
    {rest : List Char} (hrest : Ends rest) :
    Scan.between.run (t.text ++ rest) = .number v :: Scan.between.run rest := by
  obtain ⟨n, hreached, hcomplete, hreaches⟩ := h.exists_reaches
  have hn : n.numeral? = some v := (hreached.wellFormed hcomplete).2.trans hv
  rw [hreaches]
  cases rest with
  | nil =>
    rw [Scan.run, Scan.finish, if_pos hcomplete, NumberScan.lexeme, hn]
    rfl
  | cons c rest =>
    obtain ⟨hdigit, hpoint, hmark⟩ := hrest c rfl
    exact run_of_step hn (step_of_isComplete hcomplete hdigit hpoint hmark)

/-- A number that has been begun goes wrong or is read to its end. -/
theorem Reached.run_cases {n : NumberScan} {t : NumberText} (h : Reached n t) (cs : List Char) :
    (∃ problem, (Scan.number n).run cs = [.broken false problem]) ∨
      ∃ (t' : NumberText) (v : Numeral) (rest : List Char), t'.WellFormed ∧ t'.numeral? = some v ∧
        t.text ++ cs = t'.text ++ rest ∧
          (Scan.number n).run cs = .number v :: Scan.between.run rest := by
  -- what has been read moves from the text into the parts, their sum stays the same
  induction cs generalizing n t with
  | nil =>
    rw [Scan.run, Scan.finish]
    by_cases hcomplete : n.isComplete = true
    · obtain ⟨hwell, hnumeral⟩ := h.wellFormed hcomplete
      rw [if_pos hcomplete, NumberScan.lexeme]
      cases hv : n.numeral? with
      | none => exact .inl ⟨.malformed, rfl⟩
      | some v => exact .inr ⟨t, v, [], hwell, hnumeral.symm.trans hv, rfl, rfl⟩
    · rw [if_neg hcomplete]
      exact .inl ⟨.truncated, rfl⟩
  | cons c cs ih =>
    cases hstep : n.step c with
    | more n' =>
      obtain ⟨t', hreached, htext⟩ := h.exists_step hstep
      have hrun : (Scan.number n).run (c :: cs) = (Scan.number n').run cs := by
        rw [Scan.run, Scan.step, hstep]
        rfl
      rw [hrun, List.append_cons, ← htext]
      exact ih hreached
    | done =>
      obtain ⟨hwell, hnumeral⟩ := h.wellFormed (isComplete_of_step hstep)
      cases hv : n.numeral? with
      | none =>
        refine .inl ⟨.malformed, ?_⟩
        rw [Scan.run, Scan.step, hstep]
        dsimp only
        rw [Scan.endNumber, NumberScan.lexeme, hv]
      | some v =>
        exact .inr ⟨t, v, c :: cs, hwell, hnumeral.symm.trans hv, rfl, run_of_step hv hstep⟩
    | wrong =>
      refine .inl ⟨.malformed, ?_⟩
      rw [Scan.run, Scan.step, hstep]

theorem WellFormed.text_ne_nil {t : NumberText} (h : t.WellFormed) : t.text ≠ [] := by
  have hwhole : t.whole ≠ [] := by
    rcases h.whole with hzero | ⟨digits, -⟩
    · rw [hzero]
      exact List.cons_ne_nil _ _
    · exact digits.1
  simp [text, hwhole]

end NumberText
end PatternTree
