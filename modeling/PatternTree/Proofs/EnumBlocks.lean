import Mathlib.Data.List.Forall2
import PatternTree.Derive.Generator

/-!
# The generators agree on enums

Three generators take an enum apart variant by variant: for its location, for its kind and for
conversions from the fields of its variants. They accept the same enums, and what they make of one
belongs together.

* `forVariants` is the loop that all of them run, with what is made of one variant left open
  (`forward_eq`, `Item.conversions_eq`). It succeeds exactly if every variant is `Variant.Single`,
  and then makes one thing of each variant in turn.
* `Item.Heading` says what all blocks for an item repeat of it, and `Item.AreBlocks` what the texts
  of the blocks for an enum are. Both write the texts out, for each sort of parameter, for the where
  clause, for a method and for an arm.
-/

namespace PatternTree

/-! ## Variants -/

namespace Variant

/-- The variant has exactly one field, by position. -/
def Single (v : Variant) : Prop :=
  ∃ f, v.shape = .tuple [f]

variable {v : Variant}

theorem fieldType_of_shape {f : TupleField} (h : v.shape = .tuple [f]) :
    v.fieldType = .ok f.type := by
  rw [fieldType, h]

theorem fieldType_of_not_single (h : ¬ v.Single) : v.fieldType = .error .notASingleField := by
  unfold fieldType
  split
  · next f hf => exact absurd ⟨f, hf⟩ h
  · rfl

end Variant

section

variable {α : Type} {make : Variant → String → α} {variants : List Variant}

/-- Makes something of every variant and the type of its field. -/
def forVariants (make : Variant → String → α) : List Variant → Except Refusal (List α)
  | [] => .ok []
  | v :: rest => do
    let t ← v.fieldType
    let made ← forVariants make rest
    .ok (make v t :: made)

theorem forVariants_cons {v : Variant} {t : String} (h : v.fieldType = .ok t) :
    forVariants make (v :: variants) = (forVariants make variants).map (make v t :: ·) := by
  rw [forVariants, h]
  cases forVariants make variants <;> rfl

/-- Of single fields one thing each is made, in their order. -/
theorem forVariants_ok (make : Variant → String → α) (h : ∀ v ∈ variants, v.Single) :
    ∃ made, forVariants make variants = .ok made ∧
      List.Forall₂ (fun v a => ∃ f, v.shape = .tuple [f] ∧ a = make v f.type) variants made := by
  induction variants with
  | nil => exact ⟨[], rfl, .nil⟩
  | cons v rest ih =>
    obtain ⟨f, hf⟩ := h v List.mem_cons_self
    obtain ⟨made, hmade, heach⟩ := ih fun w hw => h w (List.mem_cons_of_mem v hw)
    refine ⟨make v f.type :: made, ?_, .cons ⟨f, hf, rfl⟩ heach⟩
    rw [forVariants_cons (Variant.fieldType_of_shape hf), hmade]
    rfl

/-- One variant of another form refuses the whole enum, wherever it stands. -/
theorem forVariants_error {v : Variant} (hv : v ∈ variants) (h : ¬ v.Single) :
    forVariants make variants = .error .notASingleField := by
  induction variants with
  | nil => cases hv
  | cons w rest ih =>
    by_cases hw : w.Single
    · obtain ⟨f, hf⟩ := hw
      -- the first variant is fine, so the other one is further down
      have hrest : v ∈ rest := by
        rcases List.mem_cons.mp hv with rfl | hrest
        · exact absurd ⟨f, hf⟩ h
        · exact hrest
      rw [forVariants_cons (Variant.fieldType_of_shape hf), ih hrest]
      rfl
    · rw [forVariants, Variant.fieldType_of_not_single hw]
      rfl

/-- Forwarding is this loop, making arms. -/
theorem forward_eq (path : Code) (variants : List Variant) :
    forward path variants = forVariants (fun v _ => ⟨v.name, path⟩) variants := by
  induction variants with
  | nil => rfl
  | cons v rest ih => rw [forward, forVariants, ih]

/-- Conversions are this loop, making blocks. -/
theorem Item.conversions_eq (item : Item) (variants : List Variant) :
    item.conversions variants = forVariants (fun v t => item.conversion v.name t) variants := by
  induction variants with
  | nil => rfl
  | cons v rest ih => rw [conversions, forVariants, ih]

/-- The arms of single fields, one for each variant. -/
def arms (path : Code) (variants : List Variant) : List Arm :=
  variants.map fun v => ⟨v.name, path⟩

theorem forward_ok (path : Code) (h : ∀ v ∈ variants, v.Single) :
    forward path variants = .ok (arms path variants) := by
  obtain ⟨made, hmade, heach⟩ := forVariants_ok (fun v _ => (⟨v.name, path⟩ : Arm)) h
  have heq : List.Forall₂ (· = ·) (arms path variants) made := by
    refine List.forall₂_map_left_iff.mpr (heach.imp ?_)
    rintro v a ⟨f, -, rfl⟩
    rfl
  rw [List.forall₂_eq_eq_eq] at heq
  rw [forward_eq, hmade, heq]

theorem forward_error {v : Variant} (path : Code) (hv : v ∈ variants) (h : ¬ v.Single) :
    forward path variants = .error .notASingleField := by
  rw [forward_eq, forVariants_error hv h]

end

/-! ## The text of a block -/

namespace Param

/-- The default of a parameter, if it has one. -/
def default? : Param → Option String
  | .lifetime _ _ => none
  | .type _ _ default => default
  | .const _ _ default => default

/-- A parameter with its bounds and without its default. -/
inductive Stripped : Param → Code → Prop where
  /-- a lifetime -/
  | lifetime {n : String} : Stripped (.lifetime n "") [n]
  /-- a lifetime with bounds -/
  | boundLifetime {n bounds : String} (given : bounds ≠ "") :
      Stripped (.lifetime n bounds) [n, ":", bounds]
  /-- a type -/
  | type {n : String} {default : Option String} : Stripped (.type n "" default) [n]
  /-- a type with bounds -/
  | boundType {n bounds : String} {default : Option String} (given : bounds ≠ "") :
      Stripped (.type n bounds default) [n, ":", bounds]
  /-- a constant -/
  | const {n t : String} {default : Option String} :
      Stripped (.const n t default) ["const", n, ":", t]

/-- A parameter by its name alone. -/
inductive Named : Param → String → Prop where
  /-- a lifetime -/
  | lifetime {n bounds : String} : Named (.lifetime n bounds) n
  /-- a type -/
  | type {n bounds : String} {default : Option String} : Named (.type n bounds default) n
  /-- a constant -/
  | const {n t : String} {default : Option String} : Named (.const n t default) n

/-- What stands in the head of a block is what the item declares, but for a default behind it. -/
def Heads (p : Param) (c : Code) : Prop :=
  p.Stripped c ∧ p.declaration = c ++ p.default?.elim [] (["=", ·])

theorem heads_bare (p : Param) : p.Heads p.bare := by
  cases p with
  | lifetime n bounds =>
    rw [bare, boundsCode]
    split
    · next h =>
      subst h
      exact ⟨.lifetime, rfl⟩
    · next h => exact ⟨.boundLifetime h, by simp [declaration, boundsCode, h, default?]⟩
  | type n bounds default =>
    rw [bare, boundsCode]
    split
    · next h =>
      subst h
      exact ⟨.type, by cases default <;> rfl⟩
    · next h =>
      refine ⟨.boundType h, ?_⟩
      cases default <;> simp [declaration, boundsCode, h, default?, defaultCode]
  | const n t default => exact ⟨.const, by cases default <;> rfl⟩

theorem Heads.unique : Relator.RightUnique Heads := by
  rintro p c c' ⟨h, -⟩ ⟨h', -⟩
  cases h with
  | lifetime =>
    cases h' with
    | lifetime => rfl
    | boundLifetime given => exact absurd rfl given
  | boundLifetime given =>
    cases h' with
    | lifetime => exact absurd rfl given
    | boundLifetime given => rfl
  | type =>
    cases h' with
    | type => rfl
    | boundType given => exact absurd rfl given
  | boundType given =>
    cases h' with
    | type => exact absurd rfl given
    | boundType given => rfl
  | const =>
    cases h'
    rfl

theorem Named.unique : Relator.RightUnique Named := by
  intro p n n' h h'
  cases h <;> cases h' <;> rfl

theorem named_name (p : Param) : p.Named p.name := by
  cases p with
  | lifetime n bounds => exact .lifetime
  | type n bounds default => exact .type
  | const n t default => exact .const

end Param

/-- Codes in angle brackets, with commas between them. Without codes there are no brackets. -/
inductive Bracketed : List Code → Code → Prop where
  /-- no codes -/
  | nil : Bracketed [] []
  /-- one or more codes -/
  | cons {c : Code} {cs : List Code} :
      Bracketed (c :: cs) (["<"] ++ [","].intercalate (c :: cs) ++ [">"])

/-- Predicates behind `where`, with commas between them. Without predicates there is no clause. -/
inductive Clause : List String → Code → Prop where
  /-- no predicates -/
  | nil : Clause [] []
  /-- one or more predicates -/
  | cons {p : String} {ps : List String} : Clause (p :: ps) ("where" :: (p :: ps).intersperse ",")

theorem Bracketed.unique {cs : List Code} {c c' : Code} (h : Bracketed cs c)
    (h' : Bracketed cs c') : c = c' := by
  cases h <;> cases h' <;> rfl

theorem Clause.unique {ps : List String} {c c' : Code} (h : Clause ps c) (h' : Clause ps c') :
    c = c' := by
  cases h <;> cases h' <;> rfl

theorem commaSeparated_eq (cs : List Code) : Code.commaSeparated cs = [","].intercalate cs := by
  induction cs with
  | nil => rfl
  | cons c rest ih =>
    cases rest with
    | nil => exact (List.append_nil c).symm
    | cons d rest =>
      rw [Code.commaSeparated, ih]
      · rfl
      · exact List.cons_ne_nil d rest

theorem bracketed_angled {cs : List Code} (h : [] ∉ cs) :
    Bracketed cs (Code.angled (Code.commaSeparated cs)) := by
  cases cs with
  | nil => exact .nil
  | cons c cs =>
    have hne : Code.commaSeparated (c :: cs) ≠ [] := by
      cases cs with
      | nil =>
        rintro rfl
        exact h List.mem_cons_self
      | cons d cs => simp [Code.commaSeparated]
    rw [Code.angled, commaSeparated_eq]
    · exact .cons
    · exact hne

theorem commaSeparated_map_singleton (ps : List String) :
    Code.commaSeparated (ps.map ([·])) = ps.intersperse "," := by
  induction ps with
  | nil => rfl
  | cons p rest ih =>
    cases rest with
    | nil => rfl
    | cons q rest =>
      rw [List.map_cons, Code.commaSeparated, ih]
      · rfl
      · exact List.cons_ne_nil _ _

theorem clause_whereCode (item : Item) : Clause item.predicates item.whereCode := by
  rw [Item.whereCode]
  cases item.predicates with
  | nil => exact .nil
  | cons p ps =>
    dsimp only
    rw [commaSeparated_map_singleton]
    exact .cons

namespace Item

/-- What all blocks for an item repeat of it: its parameters behind `impl`, their names behind its
own name, and its where clause. -/
structure Heading (item : Item) (params arguments clause : Code) : Prop where
  /-- the parameters, with bounds and without defaults -/
  params : ∃ cs, List.Forall₂ Param.Heads item.params cs ∧ Bracketed cs params
  /-- the names of the parameters -/
  arguments : ∃ ns, List.Forall₂ Param.Named item.params ns ∧ Bracketed (ns.map ([·])) arguments
  /-- the predicates -/
  clause : Clause item.predicates clause

/-- An item has one heading. -/
theorem Heading.unique {item : Item} {params arguments clause params' arguments' clause' : Code}
    (h : item.Heading params arguments clause) (h' : item.Heading params' arguments' clause') :
    params = params' ∧ arguments = arguments' ∧ clause = clause' := by
  obtain ⟨⟨cs, hcs, hparams⟩, ⟨ns, hns, harguments⟩, hclause⟩ := h
  obtain ⟨⟨cs', hcs', hparams'⟩, ⟨ns', hns', harguments'⟩, hclause'⟩ := h'
  obtain rfl := List.right_unique_forall₂' Param.Heads.unique hcs hcs'
  obtain rfl := List.right_unique_forall₂' Param.Named.unique hns hns'
  exact ⟨hparams.unique hparams', harguments.unique harguments', hclause.unique hclause'⟩

/-- The text of a block for an item: what it repeats of it, the trait and what stands in braces. -/
def implText (item : Item) (params arguments clause trait body : Code) : Code :=
  ["#", "[", "automatically_derived", "]", "impl"] ++ params ++ trait ++ ["for", item.name] ++
    arguments ++ clause ++ ["\x7b"] ++ body ++ ["\x7d"]

/-- Blocks with the header of an item have its heading. -/
theorem exists_heading (item : Item) :
    ∃ params arguments clause, item.Heading params arguments clause ∧
      ∀ b : Block, b.header = item.header →
        b.code = item.implText params arguments clause b.trait (b.methods.flatMap (·.code)) := by
  refine ⟨_, _, item.whereCode, ⟨⟨item.params.map (·.bare), ?_, bracketed_angled ?_⟩,
    ⟨item.params.map (·.name), ?_, bracketed_angled ?_⟩, clause_whereCode item⟩, ?_⟩
  · rw [List.forall₂_map_right_iff, List.forall₂_same]
    exact fun p _ => p.heads_bare
  · intro hmem
    obtain ⟨p, -, hp⟩ := List.mem_map.mp hmem
    cases p <;> cases hp
  · rw [List.forall₂_map_right_iff, List.forall₂_same]
    exact fun p _ => p.named_name
  · simp
  · intro b hb
    rw [Block.code, hb]
    simp [implText, header, Code.braced]

end Item

/-- The text of a method that hands the field of the variant at hand to a function, with one arm for
each variant. -/
def forwardText (signature path : Code) (variants : List Variant) : Code :=
  ["fn"] ++ signature ++ ["\x7b", "match", "self", "\x7b"] ++
    variants.flatMap (fun v =>
      ["Self", "::", v.name, "(", "field", ")", "=>"] ++ path ++ ["(", "field", ")", ","]) ++
    ["\x7d", "\x7d"]

theorem code_forward (signature path : Code) (variants : List Variant) :
    Method.code ⟨signature, .forward (arms path variants)⟩ =
      forwardText signature path variants := by
  simp [Method.code, MethodBody.code, Code.braced, arms, List.flatMap_map, Arm.code, forwardText]

/-! ## Enums -/

namespace Item

/-- The texts of the blocks for an enum. All of them have one heading, and the three methods that
ask the variant at hand differ in their signatures and in the function they call. -/
def AreBlocks (item : Item) (variants : List Variant) (located node : Code)
    (conversions : List Code) : Prop :=
  ∃ params arguments clause, item.Heading params arguments clause ∧
    located = item.implText params arguments clause ["::", "global_common", "::", "Located"]
      (forwardText
          ["loc", "(", "&", "self", ")", "->", "&", "::", "global_common", "::", "SourceLocation"]
          ["::", "global_common", "::", "Located", "::", "loc"] variants ++
        forwardText ["loc_mut", "(", "&", "mut", "self", ")", "->", "&", "mut",
            "::", "global_common", "::", "SourceLocation"]
          ["::", "global_common", "::", "Located", "::", "loc_mut"] variants) ∧
    node = item.implText params arguments clause ["crate", "::", "Node"]
      (forwardText ["kind", "(", "&", "self", ")", "->", "crate", "::", "NodeKind"]
        ["crate", "::", "Node", "::", "kind"] variants) ∧
    List.Forall₂ (fun c v => ∃ f, v.shape = .tuple [f] ∧
      c = item.implText params arguments clause ["From", "<", f.type, ">"]
        ["fn", "from", "(", "v", ":", f.type, ")", "->", "Self", "\x7b",
          item.name, "::", v.name, "(", "v", ")", "\x7d"]) conversions variants

variable {item : Item} {variants : List Variant}

theorem located_ok (h : item.data = .enum variants) (hsingle : ∀ v ∈ variants, v.Single) :
    item.located = .ok [⟨locatedTrait, item.header,
      [⟨["loc", "(", "&", "self", ")", "->", "&"] ++ locationType,
          .forward (arms (locatedTrait ++ ["::", "loc"]) variants)⟩,
        ⟨["loc_mut", "(", "&", "mut", "self", ")", "->", "&", "mut"] ++ locationType,
          .forward (arms (locatedTrait ++ ["::", "loc_mut"]) variants)⟩]⟩] := by
  rw [located, locationBodies, h]
  simp only [forward_ok _ hsingle]
  rfl

theorem node_ok (h : item.data = .enum variants) (hsingle : ∀ v ∈ variants, v.Single) :
    item.node = .ok [⟨["crate", "::", "Node"], item.header,
      [⟨["kind", "(", "&", "self", ")", "->", "crate", "::", "NodeKind"],
        .forward (arms ["crate", "::", "Node", "::", "kind"] variants)⟩]⟩] := by
  rw [node, kindBody, h]
  simp only [forward_ok _ hsingle]
  rfl

theorem fromVariant_ok (h : item.data = .enum variants) (hsingle : ∀ v ∈ variants, v.Single) :
    ∃ bs, item.fromVariant = .ok bs ∧
      List.Forall₂ (fun b v => ∃ f, v.shape = .tuple [f] ∧ b = item.conversion v.name f.type) bs
        variants := by
  obtain ⟨bs, hbs, heach⟩ := forVariants_ok (fun v t => item.conversion v.name t) hsingle
  refine ⟨bs, ?_, heach.flip⟩
  rw [fromVariant, h]
  exact (item.conversions_eq variants).trans hbs

/-- Nothing is generated from an enum with a variant of another form. -/
theorem refused {v : Variant} (h : item.data = .enum variants) (hv : v ∈ variants)
    (hsingle : ¬ v.Single) :
    item.located = .error .notASingleField ∧ item.node = .error .notASingleField ∧
      item.fromVariant = .error .notASingleField := by
  refine ⟨?_, ?_, ?_⟩
  · rw [located, locationBodies, h]
    simp only [forward_error _ hv hsingle]
    rfl
  · rw [node, kindBody, h]
    simp only [forward_error _ hv hsingle]
    rfl
  · rw [fromVariant, h]
    exact (item.conversions_eq variants).trans (forVariants_error hv hsingle)

/-- **The generators agree on enums.** If every variant has exactly one field, by position, all of
them succeed: location and kind are forwarded with one arm for each variant, which differ in the
path only, there is one conversion for each variant, in their order, and all blocks have the same
heading. If not, all of them are refused in the same words, and nothing else is generated. -/
theorem enum_generators_agree (h : item.data = .enum variants) :
    ((∀ v ∈ variants, v.Single) ∧ ∃ l n bs,
        item.located = .ok [l] ∧ item.node = .ok [n] ∧ item.fromVariant = .ok bs ∧
        blocksCode item.located = l.code ∧ blocksCode item.node = n.code ∧
        blocksCode item.fromVariant = (bs.map (·.code)).flatten ∧
        item.AreBlocks variants l.code n.code (bs.map (·.code))) ∨
      (¬ ∀ v ∈ variants, v.Single) ∧ ∀ r ∈ [item.located, item.node, item.fromVariant],
        r = .error .notASingleField ∧
        blocksCode r = ["::", "core", "::", "compile_error", "!", "\x7b",
          "\"expected a tuple variant with exactly one field\"", "\x7d"] ∧
        (blocksCode r).count "compile_error" = 1 ∧ "impl" ∉ blocksCode r := by
  by_cases hsingle : ∀ v ∈ variants, v.Single
  · left
    obtain ⟨bs, hbs, hconversions⟩ := fromVariant_ok h hsingle
    obtain ⟨params, arguments, clause, hheading, htext⟩ := item.exists_heading
    refine ⟨hsingle, _, _, bs, located_ok h hsingle, node_ok h hsingle, hbs, ?_, ?_, ?_,
      params, arguments, clause, hheading, ?_, ?_, ?_⟩
    · rw [located_ok h hsingle, blocksCode, List.flatMap_singleton]
    · rw [node_ok h hsingle, blocksCode, List.flatMap_singleton]
    · rw [hbs]
      rfl
    · rw [htext _ rfl, List.flatMap_cons, List.flatMap_singleton, code_forward, code_forward]
      rfl
    · rw [htext _ rfl, List.flatMap_singleton, code_forward]
    · rw [List.forall₂_map_left_iff]
      refine hconversions.imp ?_
      rintro b v ⟨f, hf, rfl⟩
      exact ⟨f, hf, htext _ rfl⟩
  · right
    refine ⟨hsingle, ?_⟩
    intro r hr
    obtain ⟨v, hv, hother⟩ : ∃ v ∈ variants, ¬ v.Single := by simpa using hsingle
    obtain ⟨hl, hn, hbs⟩ := refused h hv hother
    have hrefused : r = .error .notASingleField := by
      simp only [hl, hn, hbs, List.mem_cons, List.not_mem_nil, or_false, or_self] at hr
      exact hr
    subst hrefused
    exact ⟨rfl, rfl, by decide, by decide⟩

/-- Two variants, the second of which borrows. -/
def pairedVariants : List Variant :=
  [{ name := "First", shape := .tuple [{ type := "T" }] },
    { name := "Second", shape := .tuple [{ type := "& 'a T" }] }]

/-- An enum with a bound, defaults and a where clause. -/
def paired : Item where
  name := "Pair"
  params := [.lifetime "'a" "", .type "T" "Node" (some "Leaf"), .const "N" "usize" (some "0")]
  predicates := ["T : Clone", "T : 'a"]
  data := .enum pairedVariants

theorem heading_paired :
    paired.Heading ["<", "'a", ",", "T", ":", "Node", ",", "const", "N", ":", "usize", ">"]
      ["<", "'a", ",", "T", ",", "N", ">"] ["where", "T : Clone", ",", "T : 'a"] where
  params := ⟨_, .cons ⟨.lifetime, rfl⟩ (.cons ⟨.boundType (by decide), rfl⟩
    (.cons ⟨.const, rfl⟩ .nil)), .cons⟩
  arguments := ⟨_, .cons .lifetime (.cons .type (.cons .const .nil)), .cons⟩
  clause := .cons

/-- The texts of the blocks follow from the theorem: parameters without their defaults, names, the
where clause, and one arm or conversion for each variant. -/
theorem paired_generators_agree :
    paired.data = .enum pairedVariants ∧
      blocksCode paired.node =
        ["#", "[", "automatically_derived", "]", "impl",
          "<", "'a", ",", "T", ":", "Node", ",", "const", "N", ":", "usize", ">",
          "crate", "::", "Node", "for", "Pair", "<", "'a", ",", "T", ",", "N", ">",
          "where", "T : Clone", ",", "T : 'a", "\x7b",
          "fn", "kind", "(", "&", "self", ")", "->", "crate", "::", "NodeKind", "\x7b",
          "match", "self", "\x7b",
          "Self", "::", "First", "(", "field", ")", "=>",
          "crate", "::", "Node", "::", "kind", "(", "field", ")", ",",
          "Self", "::", "Second", "(", "field", ")", "=>",
          "crate", "::", "Node", "::", "kind", "(", "field", ")", ",",
          "\x7d", "\x7d", "\x7d"] ∧
      blocksCode paired.fromVariant =
        ["#", "[", "automatically_derived", "]", "impl",
          "<", "'a", ",", "T", ":", "Node", ",", "const", "N", ":", "usize", ">",
          "From", "<", "T", ">", "for", "Pair", "<", "'a", ",", "T", ",", "N", ">",
          "where", "T : Clone", ",", "T : 'a", "\x7b",
          "fn", "from", "(", "v", ":", "T", ")", "->", "Self", "\x7b",
          "Pair", "::", "First", "(", "v", ")", "\x7d", "\x7d",
          "#", "[", "automatically_derived", "]", "impl",
          "<", "'a", ",", "T", ":", "Node", ",", "const", "N", ":", "usize", ">",
          "From", "<", "& 'a T", ">", "for", "Pair", "<", "'a", ",", "T", ",", "N", ">",
          "where", "T : Clone", ",", "T : 'a", "\x7b",
          "fn", "from", "(", "v", ":", "& 'a T", ")", "->", "Self", "\x7b",
          "Pair", "::", "Second", "(", "v", ")", "\x7d", "\x7d"] := by
  have hsingle : ∀ v ∈ pairedVariants, v.Single := by simp [pairedVariants, Variant.Single]
  obtain ⟨-, l, n, bs, -, -, -, -, hnode, hfrom, params, arguments, clause, hheading, -, hn, hbs⟩ |
    ⟨hother, -⟩ := @enum_generators_agree paired pairedVariants rfl
  · obtain ⟨rfl, rfl, rfl⟩ := hheading.unique heading_paired
    refine ⟨rfl, hnode.trans hn, ?_⟩
    generalize bs.map (·.code) = codes at hfrom hbs
    obtain _ | ⟨⟨f, hf, rfl⟩, _ | ⟨⟨g, hg, rfl⟩, _ | _⟩⟩ := hbs
    cases hf
    cases hg
    exact hfrom
  · exact absurd hsingle hother

/-- A variant without a field spoils the conversions of those before it. -/
example : item.conversions (pairedVariants ++ [{ name := "Neither" }]) = .error .notASingleField :=
  rfl

end Item

end PatternTree
