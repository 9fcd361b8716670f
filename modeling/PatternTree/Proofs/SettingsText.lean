import Mathlib.Data.List.Nodup
import Mathlib.Data.List.Perm.Basic
import Mathlib.Data.Set.List
import PatternTree.Proofs.Objects
import PatternTree.Proofs.Spelling
import PatternTree.Settings.OfDocument
import PatternTree.Settings.OfText

/-!
# Two ways to read settings

Settings are read from a text as it comes, or from the document that the text makes up. The second
way sees an object after fields with equal keys have been merged, the first refuses such a field at
once. In all else they agree.

Both are measured by `Settings.Stated`, which says what settings a document states. It is a matter
of lists of switches with their positions: the fields of an object are such a list (`Switch.field`),
and so are the lexemes between its braces.
-/

namespace PatternTree

namespace Switch

/-- A switch and its position, as a field of an object. -/
def field (p : Switch × Bool) : String × Document :=
  (p.1.name, .bool p.2)

theorem ofName?_eq_some_iff {key : String} {w : Switch} : ofName? key = some w ↔ w.name = key :=
  find?_name_eq_some_iff (ofName?_name w)

theorem name_injective : Function.Injective name := by
  intro v w h
  have hname := ofName?_name v
  rw [h, ofName?_name w] at hname
  exact (Option.some.inj hname).symm

theorem field_injective : Function.Injective field := by
  intro p q h
  obtain ⟨hname, hvalue⟩ := Prod.mk.inj h
  exact Prod.ext (name_injective hname) (Document.bool.inj hvalue)

end Switch

namespace Settings

/-- The settings that a document states. -/
inductive Stated : Document → Settings → Prop where
  /-- an object whose fields all put a switch in a position. The last field for a switch counts, and
  a switch without a field has its default -/
  | object (ps : List (Switch × Bool)) :
      Stated (.object (ps.map Switch.field))
        { locations := (ps.reverse.lookup .locations).getD true
          ranges := (ps.reverse.lookup .ranges).getD false }
  /-- an array of at most two positions -/
  | array (bs : List Bool) (short : bs.length ≤ 2) :
      Stated (.array (bs.map .bool)) { locations := bs[0]?.getD true, ranges := bs[1]?.getD false }

/-- The settings with several switches put in a position, one after the other. -/
def setAll (s : Settings) (ps : List (Switch × Bool)) : Settings :=
  ps.foldl (fun s p => s.set p.1 p.2) s

theorem setAll_concat (s : Settings) (ps : List (Switch × Bool)) (p : Switch × Bool) :
    s.setAll (ps ++ [p]) = (s.setAll ps).set p.1 p.2 := by
  rw [setAll, List.foldl_append]
  rfl

/-- The last position of each switch counts. -/
theorem setAll_eq (s : Settings) (ps : List (Switch × Bool)) :
    s.setAll ps = { locations := (ps.reverse.lookup .locations).getD s.locations
                    ranges := (ps.reverse.lookup .ranges).getD s.ranges } := by
  induction ps using List.reverseRecOn with
  | nil => rfl
  | append_singleton ps p ih =>
    obtain ⟨w, b⟩ := p
    rw [setAll_concat, ih, List.reverse_append, List.reverse_singleton, List.singleton_append]
    cases w with
    | locations => rfl
    | ranges => rfl

/-! ## From a document -/

theorem position_ok_iff {d : Document} {b : Bool} : position d = .ok b ↔ d = .bool b := by
  cases d <;> simp [position]

/-- Fields give settings if each of them puts a switch in a position. -/
theorem ofFields_ok_iff {s c : Settings} {fields : Fields} :
    ofFields s fields = .ok c ↔ ∃ ps, fields = ps.map Switch.field ∧ c = s.setAll ps := by
  refine ⟨?_, ?_⟩
  · intro h
    induction fields generalizing s with
    | nil =>
      cases h
      exact ⟨[], rfl, rfl⟩
    | cons f fields ih =>
      obtain ⟨key, d⟩ := f
      rw [ofFields] at h
      split at h
      · next w hw =>
        obtain ⟨b, hb, h⟩ := Document.ok_of_bind h
        obtain ⟨ps, rfl, rfl⟩ := ih h
        rw [← Switch.ofName?_eq_some_iff.mp hw, position_ok_iff.mp hb]
        exact ⟨(w, b) :: ps, rfl, rfl⟩
      · cases h
  · rintro ⟨ps, rfl, rfl⟩
    induction ps generalizing s with
    | nil => rfl
    | cons p ps ih =>
      obtain ⟨w, b⟩ := p
      rw [List.map_cons, Switch.field, ofFields, Switch.ofName?_name]
      exact ih

/-- Entries give settings if there are at most two, and each is a position. -/
theorem ofEntries_ok_iff {c : Settings} {entries : List Document} :
    ofEntries entries = .ok c ↔ ∃ bs : List Bool, bs.length ≤ 2 ∧ entries = bs.map .bool ∧
      c = { locations := bs[0]?.getD true, ranges := bs[1]?.getD false } := by
  refine ⟨?_, ?_⟩
  · intro h
    unfold ofEntries at h
    split at h
    · cases h
      exact ⟨[], by decide, rfl, rfl⟩
    · obtain ⟨a, ha, h⟩ := Document.ok_of_bind h
      cases h
      rw [position_ok_iff.mp ha]
      exact ⟨[a], Nat.le_succ 1, rfl, rfl⟩
    · obtain ⟨a, ha, h⟩ := Document.ok_of_bind h
      obtain ⟨b, hb, h⟩ := Document.ok_of_bind h
      cases h
      rw [position_ok_iff.mp ha, position_ok_iff.mp hb]
      exact ⟨[a, b], Nat.le_refl 2, rfl, rfl⟩
    · obtain ⟨a, -, h⟩ := Document.ok_of_bind h
      obtain ⟨b, -, h⟩ := Document.ok_of_bind h
      cases h
  · rintro ⟨bs, hshort, rfl, rfl⟩
    rcases bs with _ | ⟨a, _ | ⟨b, _ | ⟨e, bs⟩⟩⟩
    · rfl
    · rfl
    · rfl
    · simp only [List.length_cons] at hshort
      omega

/-- A document gives the settings that it states. -/
theorem ofDocument_ok_iff_stated {d : Document} {c : Settings} :
    ofDocument d = .ok c ↔ Stated d c := by
  refine ⟨?_, ?_⟩
  · intro h
    cases d with
    | object fields =>
      obtain ⟨ps, rfl, rfl⟩ := ofFields_ok_iff.mp h
      rw [setAll_eq]
      exact .object ps
    | array entries =>
      obtain ⟨bs, hshort, rfl, rfl⟩ := ofEntries_ok_iff.mp h
      exact .array bs hshort
    | _ => cases h
  · rintro (ps | ⟨bs, short⟩)
    · exact ofFields_ok_iff.mpr ⟨ps, rfl, (setAll_eq {} ps).symm⟩
    · exact ofEntries_ok_iff.mpr ⟨bs, short, rfl, rfl⟩

theorem stated_object_iff {fields : Fields} {c : Settings} :
    Stated (.object fields) c ↔ ∃ ps, fields = ps.map Switch.field ∧ c = setAll {} ps :=
  ofDocument_ok_iff_stated.symm.trans ofFields_ok_iff

theorem stated_array_iff {entries : List Document} {c : Settings} :
    Stated (.array entries) c ↔ ∃ bs : List Bool, bs.length ≤ 2 ∧ entries = bs.map .bool ∧
      c = { locations := bs[0]?.getD true, ranges := bs[1]?.getD false } :=
  ofDocument_ok_iff_stated.symm.trans ofEntries_ok_iff

/-! ## From lexemes -/

theorem positionOfLexeme_ok_iff {l : Lexeme} {b : Bool} :
    positionOfLexeme l = .ok b ↔ l = .bool b := by
  cases l <;> simp [positionOfLexeme]

theorem finish_ok_iff {s c : Settings} {ls : List Lexeme} :
    finish s ls = .ok c ↔ ls = [] ∧ c = s := by
  cases ls <;> simp [finish, eq_comm]

namespace Given

theorem get?_set (g : Given) (w v : Switch) (b : Bool) :
    (g.set w b).get? v = if v = w then some b else g.get? v := by
  cases w <;> cases v <;> rfl

theorem setAll_settings_set (g : Given) (w : Switch) (b : Bool) (ps : List (Switch × Bool)) :
    (g.set w b).settings.setAll ps = g.settings.setAll ((w, b) :: ps) := by
  cases w <;> rfl

/-- The switches are different from each other, and none of them has been given. -/
def Fresh (g : Given) (ps : List (Switch × Bool)) : Prop :=
  (ps.map Prod.fst).Nodup ∧ ∀ p ∈ ps, g.get? p.1 = none

theorem fresh_cons {g : Given} {w : Switch} {b : Bool} {ps : List (Switch × Bool)} :
    g.Fresh ((w, b) :: ps) ↔ g.get? w = none ∧ (g.set w b).Fresh ps := by
  have hget (p : Switch × Bool) : (g.set w b).get? p.1 = none ↔ p.1 ≠ w ∧ g.get? p.1 = none := by
    rw [get?_set]
    by_cases hp : p.1 = w
    · simp [hp]
    · simp [hp]
  have hnew : w ∉ ps.map Prod.fst ↔ ∀ p ∈ ps, p.1 ≠ w := by
    rw [List.mem_map, not_exists]
    exact forall_congr' fun p => not_and
  rw [Fresh, Fresh, List.map_cons, List.nodup_cons, List.forall_mem_cons, hnew]
  simp only [hget, forall₂_and]
  tauto

end Given

/-- Fields are read one by one, up to the closing brace. -/
theorem ofFieldLexemes_ok {g : Given} {ls : List Lexeme} {c : Settings}
    (h : ofFieldLexemes g ls = .ok c) :
    ∃ w b rest, g.get? w = none ∧ ls = .string w.name :: .colon :: .bool b :: rest ∧
      (rest = [.closeBrace] ∧ c = (g.set w b).settings ∨
        ∃ more, rest = .comma :: more ∧ ofFieldLexemes (g.set w b) more = .ok c) := by
  rw [ofFieldLexemes.eq_def] at h
  split at h
  · cases h
  · cases h
  · next key rest =>
    split at h
    · cases h
    · next w hw =>
      rw [← Switch.ofName?_eq_some_iff.mp hw]
      split at h
      · cases h
      · cases h
      · cases h
      · next value rest hfresh =>
        obtain ⟨b, hb, h⟩ := Document.ok_of_bind h
        rw [positionOfLexeme_ok_iff.mp hb]
        refine ⟨w, b, rest, hfresh, rfl, ?_⟩
        split at h
        · cases h
        · obtain ⟨rfl, rfl⟩ := finish_ok_iff.mp h
          exact .inl ⟨rfl, rfl⟩
        · next more _ => exact .inr ⟨more, rfl, h⟩
        · cases h
      · cases h
  · cases h

section

variable {g : Given} {w : Switch} (b : Bool)

theorem ofFieldLexemes_last (h : g.get? w = none) :
    ofFieldLexemes g [.string w.name, .colon, .bool b, .closeBrace] = .ok (g.set w b).settings := by
  rw [ofFieldLexemes, Switch.ofName?_name]
  dsimp only
  rw [h]
  rfl

theorem ofFieldLexemes_more (h : g.get? w = none) (more : List Lexeme) :
    ofFieldLexemes g (.string w.name :: .colon :: .bool b :: .comma :: more) =
      ofFieldLexemes (g.set w b) more := by
  rw [ofFieldLexemes, Switch.ofName?_name]
  dsimp only
  rw [h]
  rfl

end

/-- Lexemes give settings behind an opening brace if they are those of fields for different
switches. -/
theorem ofFieldLexemes_ok_iff {g : Given} {ls : List Lexeme} {c : Settings} :
    ofFieldLexemes g ls = .ok c ↔ ∃ ps, ps ≠ [] ∧ g.Fresh ps ∧
      ls = Document.fieldLexemes (ps.map Switch.field) ++ [.closeBrace] ∧
        c = g.settings.setAll ps := by
  refine ⟨?_, ?_⟩
  · intro h
    -- a field is four lexemes, so the induction is on their number
    induction hlength : ls.length using Nat.strongRecOn generalizing g ls with
    | ind n ih =>
      subst hlength
      obtain ⟨w, b, rest, hfresh, rfl, hrest⟩ := ofFieldLexemes_ok h
      rcases hrest with ⟨rfl, rfl⟩ | ⟨more, rfl, hmore⟩
      · have hone : g.Fresh [(w, b)] :=
          Given.fresh_cons.mpr ⟨hfresh, List.nodup_nil, List.forall_mem_nil _⟩
        refine ⟨[(w, b)], List.cons_ne_nil _ _, hone, ?_, Given.setAll_settings_set g w b []⟩
        rw [List.map_singleton, Switch.field, Document.fieldLexemes]
        rfl
      · have hshorter : more.length < more.length + 4 := by omega
        obtain ⟨ps, hne, hps, rfl, rfl⟩ := ih more.length hshorter hmore rfl
        have hmap : ps.map Switch.field ≠ [] := by simpa using hne
        refine ⟨(w, b) :: ps, List.cons_ne_nil _ _, Given.fresh_cons.mpr ⟨hfresh, hps⟩, ?_,
          Given.setAll_settings_set g w b ps⟩
        rw [List.map_cons, Switch.field, Document.fieldLexemes_cons _ _ hmap]
        rfl
  · rintro ⟨ps, hne, hfresh, rfl, rfl⟩
    induction ps generalizing g with
    | nil => exact absurd rfl hne
    | cons p ps ih =>
      obtain ⟨w, b⟩ := p
      obtain ⟨hnew, hps⟩ := Given.fresh_cons.mp hfresh
      cases ps with
      | nil =>
        rw [List.map_singleton, Switch.field, Document.fieldLexemes, Document.lexemes]
        rw [← Given.setAll_settings_set]
        exact ofFieldLexemes_last b hnew
      | cons q ps =>
        have hmap : (q :: ps).map Switch.field ≠ [] := List.cons_ne_nil _ _
        rw [List.map_cons, Switch.field, Document.fieldLexemes_cons _ _ hmap, Document.lexemes]
        have hmore := ofFieldLexemes_more b hnew
            (Document.fieldLexemes ((q :: ps).map Switch.field) ++ [.closeBrace])
        rw [← Given.setAll_settings_set]
        exact hmore.trans (ih (List.cons_ne_nil q ps) hps)

/-- Lexemes give settings behind an opening bracket if they are those of at most two positions. -/
theorem ofEntryLexemes_ok_iff {ls : List Lexeme} {c : Settings} :
    ofEntryLexemes ls = .ok c ↔ ∃ bs : List Bool, bs.length ≤ 2 ∧
      ls = Document.entryLexemes (bs.map .bool) ++ [.closeBracket] ∧
      c = { locations := bs[0]?.getD true, ranges := bs[1]?.getD false } := by
  refine ⟨?_, ?_⟩
  · intro h
    unfold ofEntryLexemes at h
    split at h
    · cases h
    · obtain ⟨rfl, rfl⟩ := finish_ok_iff.mp h
      exact ⟨[], by decide, rfl, rfl⟩
    · obtain ⟨a, ha, h⟩ := Document.ok_of_bind h
      rw [positionOfLexeme_ok_iff.mp ha]
      split at h
      · cases h
      · obtain ⟨rfl, rfl⟩ := finish_ok_iff.mp h
        exact ⟨[a], Nat.le_succ 1, rfl, rfl⟩
      · cases h
      · obtain ⟨b, hb, h⟩ := Document.ok_of_bind h
        rw [positionOfLexeme_ok_iff.mp hb]
        split at h
        · cases h
        · obtain ⟨rfl, rfl⟩ := finish_ok_iff.mp h
          exact ⟨[a, b], Nat.le_refl 2, rfl, rfl⟩
        · cases h
      · cases h
  · rintro ⟨bs, hshort, rfl, rfl⟩
    rcases bs with _ | ⟨a, _ | ⟨b, _ | ⟨e, bs⟩⟩⟩
    · rfl
    · rfl
    · rfl
    · simp only [List.length_cons] at hshort
      omega

theorem keys_map_field_nodup_iff {ps : List (Switch × Bool)} :
    (Fields.keys (ps.map Switch.field)).Nodup ↔ (ps.map Prod.fst).Nodup := by
  have hkeys : Fields.keys (ps.map Switch.field) = (ps.map Prod.fst).map Switch.name := by
    rw [Fields.keys, List.map_map, List.map_map]
    rfl
  rw [hkeys, List.nodup_map_iff Switch.name_injective]

theorem fresh_empty_iff {ps : List (Switch × Bool)} :
    Given.Fresh {} ps ↔ (ps.map Prod.fst).Nodup := by
  refine ⟨And.left, fun h => ⟨h, ?_⟩⟩
  rintro ⟨w, b⟩ -
  cases w <;> rfl

theorem ofLexemes_openBrace {ls : List Lexeme} (h : ∀ more, ls ≠ .closeBrace :: more) :
    ofLexemes (.openBrace :: ls) = ofFieldLexemes {} ls := by
  rw [ofLexemes]
  exact h

/-- Lexemes give settings if they are those of a document that states them, without repeating a
key. -/
theorem ofLexemes_ok_iff {ls : List Lexeme} {c : Settings} :
    ofLexemes ls = .ok c ↔ ∃ d : Document, ls = d.lexemes ∧ d.fields.keys.Nodup ∧ Stated d c := by
  refine ⟨?_, ?_⟩
  · intro h
    unfold ofLexemes at h
    split at h
    case h_2 rest =>
      obtain ⟨rfl, rfl⟩ := finish_ok_iff.mp h
      exact ⟨.object [], rfl, List.nodup_nil, .object []⟩
    case h_3 rest _ =>
      obtain ⟨ps, -, hfresh, rfl, rfl⟩ := ofFieldLexemes_ok_iff.mp h
      have hnodup := keys_map_field_nodup_iff.mpr hfresh.1
      refine ⟨.object (ps.map Switch.field), by rw [Document.lexemes], hnodup, ?_⟩
      rw [setAll_eq]
      exact .object ps
    case h_4 rest =>
      obtain ⟨bs, hshort, rfl, rfl⟩ := ofEntryLexemes_ok_iff.mp h
      exact ⟨.array (bs.map .bool), by rw [Document.lexemes], List.nodup_nil, .array bs hshort⟩
    all_goals cases h
  · rintro ⟨d, rfl, hnodup, hstated⟩
    cases hstated with
    | object ps =>
      have hfresh := fresh_empty_iff.mpr (keys_map_field_nodup_iff.mp hnodup)
      cases ps with
      | nil => rfl
      | cons p ps =>
        rw [Document.lexemes, List.map_cons,
          ofLexemes_openBrace (Document.fieldLexemes_ne_closeBrace _ _ _)]
        exact ofFieldLexemes_ok_iff.mpr
          ⟨p :: ps, List.cons_ne_nil p ps, hfresh, rfl, (setAll_eq {} (p :: ps)).symm⟩
    | array bs hshort =>
      rw [Document.lexemes]
      exact ofEntryLexemes_ok_iff.mpr ⟨bs, hshort, rfl, rfl⟩

end Settings

/-! ## The canonical form -/

namespace Fields

/-- A new key is put among the others. -/
theorem insertNew_perm {key : String} (v : Document) {fields : Fields} (h : key ∉ fields.keys) :
    (insertNew key v fields).Perm ((key, v) :: fields) := by
  induction fields with
  | nil => exact .refl _
  | cons f rest ih =>
    obtain ⟨k, w⟩ := f
    rw [keys, List.map_cons, List.mem_cons, not_or] at h
    rw [insertNew]
    split
    · exact .refl _
    · rw [if_neg h.1]
      exact ((ih h.2).cons (k, w)).trans (.swap (key, v) (k, w) rest)

end Fields

namespace Document

theorem canonical_eq_bool_iff {d : Document} {b : Bool} : d.canonical = .bool b ↔ d = .bool b := by
  cases d <;> simp [canonical]

theorem canonicalEntries_eq_map (entries : List Document) :
    canonicalEntries entries = entries.map canonical := by
  induction entries with
  | nil => rfl
  | cons d rest ih => rw [canonicalEntries, ih, List.map_cons]

/-- If no key is repeated, the fields are put in another order and nothing is lost. -/
theorem canonicalFields_perm {fields : Fields} (h : fields.keys.Nodup) :
    (canonicalFields fields).Perm (fields.map (Prod.map id canonical)) := by
  induction fields with
  | nil => exact .refl _
  | cons f rest ih =>
    obtain ⟨key, d⟩ := f
    rw [Fields.keys, List.map_cons, List.nodup_cons] at h
    have hrest := ih h.2
    have hkey : key ∉ Fields.keys (canonicalFields rest) := by
      rw [Fields.keys, (hrest.map Prod.fst).mem_iff, List.map_map]
      exact h.1
    rw [canonicalFields]
    exact (Fields.insertNew_perm d.canonical hkey).trans (hrest.cons _)

end Document

/-- A map that keeps the values of another one, and makes nothing else into them, does not matter
behind it. -/
theorem map_eq_map_iff_of_forall {α β : Type} {f : α → α} {g : β → α}
    (h : ∀ a b, f a = g b ↔ a = g b)
    {as : List α} {bs : List β} : as.map f = bs.map g ↔ as = bs.map g := by
  induction as generalizing bs with
  | nil => simp
  | cons a as ih =>
    cases bs with
    | nil => simp
    | cons b bs => rw [List.map_cons, List.map_cons, List.cons.injEq, List.cons.injEq, h, ih]

namespace Settings

theorem lookup_eq_of_perm {ps qs : List (Switch × Bool)} (h : ps.Perm qs)
    (hnodup : (ps.map Prod.fst).Nodup) (w : Switch) : ps.lookup w = qs.lookup w := by
  induction h with
  | nil => rfl
  | cons p _ ih =>
    rw [List.map_cons, List.nodup_cons] at hnodup
    rw [List.lookup_cons, List.lookup_cons, ih hnodup.2]
  | swap p q ps =>
    obtain ⟨v, a⟩ := p
    obtain ⟨u, b⟩ := q
    have hne : u ≠ v := by
      rw [List.map_cons, List.map_cons, List.nodup_cons] at hnodup
      exact fun h => hnodup.1 (h ▸ List.mem_cons_self)
    -- one of the two at most is looked for
    by_cases hv : w = v
    · have hu : (w == u) = false := beq_eq_false_iff_ne.mpr fun h => hne (h.symm.trans hv)
      rw [List.lookup_cons, hu, hv, List.lookup_cons_self, List.lookup_cons_self]
    · have hv' : (w == v) = false := beq_eq_false_iff_ne.mpr hv
      simp [List.lookup_cons, hv']
  | trans hps _ ih ih' => exact (ih hnodup).trans (ih' ((hps.map Prod.fst).nodup_iff.mp hnodup))

/-- The order of fields with different keys does not matter. -/
theorem Stated.perm {fields fields' : Fields} {c : Settings} (h : Stated (.object fields) c)
    (hperm : fields.Perm fields') (hnodup : fields.keys.Nodup) : Stated (.object fields') c := by
  cases h with
  | object ps =>
    have hfields : fields' ∈ Set.range (List.map Switch.field) := by
      rw [Set.range_list_map]
      intro f hf
      obtain ⟨p, -, rfl⟩ := List.mem_map.mp (hperm.mem_iff.mpr hf)
      exact ⟨p, rfl⟩
    obtain ⟨qs, rfl⟩ := hfields
    have hps : ps.reverse.Perm qs.reverse := by
      rw [List.map_perm_map_iff Switch.field_injective] at hperm
      exact (List.reverse_perm ps).trans (hperm.trans (List.reverse_perm qs).symm)
    have hkeys : (ps.reverse.map Prod.fst).Nodup := by
      rw [List.map_reverse, List.nodup_reverse]
      exact keys_map_field_nodup_iff.mp hnodup
    rw [lookup_eq_of_perm hps hkeys, lookup_eq_of_perm hps hkeys]
    exact .object qs

/-- If no key is repeated, the canonical form of a document states the same settings. -/
theorem stated_canonical_iff {d : Document} (hnodup : d.fields.keys.Nodup) {c : Settings} :
    Stated d.canonical c ↔ Stated d c := by
  cases d with
  | object fields =>
    have hperm :
        (Document.canonicalFields fields).Perm (fields.map (Prod.map id Document.canonical)) :=
      Document.canonicalFields_perm hnodup
    have hkeys : (Fields.keys (fields.map (Prod.map id Document.canonical))).Nodup := by
      rw [Fields.keys, List.map_map]
      exact hnodup
    have hvalue (f : String × Document) (p : Switch × Bool) :
        Prod.map id Document.canonical f = Switch.field p ↔ f = Switch.field p := by
      simp [Prod.ext_iff, Switch.field, Document.canonical_eq_bool_iff]
    -- what happens inside the values does not touch truth values
    have hmap : Stated (.object (fields.map (Prod.map id Document.canonical))) c ↔
        Stated (.object fields) c := by
      simp only [stated_object_iff, map_eq_map_iff_of_forall hvalue]
    rw [Document.canonical, ← hmap]
    exact ⟨fun h => h.perm hperm ((hperm.map Prod.fst).nodup_iff.mpr hkeys),
      fun h => h.perm hperm.symm hkeys⟩
  | array entries =>
    have hvalue (d : Document) (b : Bool) : d.canonical = .bool b ↔ d = .bool b :=
      Document.canonical_eq_bool_iff
    rw [Document.canonical, Document.canonicalEntries_eq_map]
    simp only [stated_array_iff, map_eq_map_iff_of_forall hvalue]
  | _ => rw [Document.canonical]

/-! ## From a text -/

theorem ofText_ok_iff_stated {s : String} {c : Settings} :
    ofText s = .ok c ↔
      ∃ d : Document, Spells d.lexemes s.toList ∧ d.fields.keys.Nodup ∧ Stated d c := by
  rw [ofText, ofLexemes_ok_iff]
  refine exists_congr fun d => and_congr_left fun _ => ?_
  exact Document.ofText_eq_lexemes_iff

/-- Settings are read from a text exactly when the text spells a document that repeats no key at its
top and the same settings are read from that document. Settings are read from a document exactly
when it states them. -/
theorem ofText_agrees_with_ofDocument (s : String) (c : Settings) :
    (ofText s = .ok c ↔ ∃ d value : Document, Spells d.lexemes s.toList ∧ d.fields.keys.Nodup ∧
      Document.read s = .ok value ∧ ofDocument value = .ok c) ∧
    (∀ value, Document.read s = .ok value ↔
      ∃ d : Document, Spells d.lexemes s.toList ∧ value = d.canonical) ∧
    ∀ d, ofDocument d = .ok c ↔ Stated d c := by
  refine ⟨?_, fun value => Document.read_ok_iff, fun d => ofDocument_ok_iff_stated⟩
  rw [ofText_ok_iff_stated]
  refine exists_congr fun d => ⟨?_, ?_⟩
  · rintro ⟨hspells, hnodup, hstated⟩
    have hvalue : ofDocument d.canonical = .ok c :=
      ofDocument_ok_iff_stated.mpr ((stated_canonical_iff hnodup).mpr hstated)
    exact ⟨d.canonical, hspells, hnodup, Document.read_ok_iff.mpr ⟨d, hspells, rfl⟩, hvalue⟩
  · rintro ⟨value, hspells, hnodup, hread, hvalue⟩
    -- the reader finds the one document that the text spells
    have hcanonical : Document.read s = .ok d.canonical :=
      Document.read_ok_iff.mpr ⟨d, hspells, rfl⟩
    rw [hread] at hcanonical
    cases hcanonical
    exact ⟨hspells, hnodup, (stated_canonical_iff hnodup).mp (ofDocument_ok_iff_stated.mp hvalue)⟩

/-- A key that is repeated is refused in whatever way it is written. -/
example : ofText "\x7b\"ranges\": true, \"r\\u0061nges\": true\x7d" = .error .content := by
  rfl

end Settings

end PatternTree
