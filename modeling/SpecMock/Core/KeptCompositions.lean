import SpecMock.Core.CompositionScripts

/-!
# Compositions that keep their parts

Generation keeps all parts of a composition exactly if none of its layouts
loses one.  In one direction, an assembly honours its layout; in the other,
the draws that lead to a layout are written down as a script.
-/

namespace SpecMock.Core

open SpecMock.Library Faker

/-- A filled name is a member, and a member is what filled its name. -/
theorem lookup_members_eq_some {fills : List (String × Assembly)} {name : String} {value : Value} :
    (Assembly.members fills).lookup name = some value ↔
      ∃ filling, fills.lookup name = some filling ∧ filling.value = value := by
  rw [Assembly.lookup_members, Option.map_eq_some_iff]

/-- A whole assembly satisfies all schemas whose nodes it has to honour. -/
theorem satisfies_of_whole {assembly : Assembly} (whole : assembly.Whole)
    {pending leaves : List Pending} {nodes : List Value} (layout : Layout pending nodes leaves)
    (within : ∀ node ∈ nodes, node ∈ assembly.nodes) :
    ∀ first ∈ pending, Satisfies first.schema assembly.value := by
  obtain ⟨required, -, declared⟩ := whole
  rw [Assembly.value_eq]
  -- A node in force has its names, whatever it combines.
  have names : ∀ node ∈ assembly.nodes, ∀ name ∈ requiredSet node,
      ∃ value, (Assembly.members assembly.fills).lookup name = some value := by
    intro node member name needed
    obtain ⟨filling, found⟩ := required node member name needed
    exact ⟨filling.value, lookup_members_eq_some.mpr ⟨filling, found, rfl⟩⟩
  have properties : ∀ node ∈ assembly.nodes, ∀ name value,
      (Assembly.members assembly.fills).lookup name = some value →
        ∀ schema, (name, schema) ∈ declaredProperties node → Satisfies schema value := by
    intro node member name value held schema listed
    obtain ⟨filling, found, rfl⟩ := lookup_members_eq_some.mp held
    exact declared name filling found node member schema listed
  induction layout with
  | done => exact fun first member => absurd member List.not_mem_nil
  | plain unvaried unjoined _ _ ih =>
      obtain ⟨here, others⟩ := List.forall_mem_cons.mp within
      refine List.forall_mem_cons.mpr ⟨?_, ih others⟩
      exact .intro .null (names _ here) (properties _ here) (by simp [unjoined])
        (by simp [unvaried]) (by simp [unvaried])
  | @variant _ _ variant _ _ _ _ listed unjoined member _ ih =>
      obtain ⟨here, others⟩ := List.forall_mem_cons.mp within
      obtain ⟨chosen, rest⟩ := List.forall_mem_cons.mp (ih others)
      refine List.forall_mem_cons.mpr ⟨?_, rest⟩
      refine .intro variant (names _ here) (properties _ here) (by simp [unjoined]) ?_ ?_
      · intro variants same
        rw [listed] at same
        exact Option.some.inj same ▸ member
      · exact fun _ _ => chosen
  | parts unvaried listed _ ih =>
      obtain ⟨here, others⟩ := List.forall_mem_cons.mp within
      obtain ⟨each, rest⟩ := List.forall_mem_append.mp (ih others)
      refine List.forall_mem_cons.mpr ⟨?_, rest⟩
      refine .intro .null (names _ here) (properties _ here) ?_ (by simp [unvaried])
        (by simp [unvaried])
      intro parts same part member
      rw [listed] at same
      exact each _ (List.mem_map_of_mem (Option.some.inj same ▸ member))

/-- Names that are sure are enough for a schema none of whose properties is there. -/
theorem satisfies_of_meets {leaves : List Pending} {schema : Value}
    (meets : Meets leaves schema) {members : List (String × Value)}
    (sure : ∀ name, Sure leaves name → ∃ value, members.lookup name = some value)
    (foreign : ∀ name value, members.lookup name = some value → ¬ Declares schema name) :
    Satisfies schema (.object members) := by
  induction meets with
  | intro chosen required parts listed variant eachPart chosenMeets =>
      refine .intro chosen (fun name needed => sure name (required name needed)) ?_ ?_ listed ?_
      · intro name value held declared member
        have named := List.mem_map_of_mem (f := Prod.fst) member
        exact absurd ⟨_, .self, named⟩ (foreign name value held)
      · intro list joined part member
        refine eachPart list joined part member fun name value held declares => ?_
        exact foreign name value held (declares.of_branch (Branch.self.part joined member))
      · intro list varied
        refine chosenMeets list varied fun name value held declares => ?_
        have branch := Branch.self.variant varied (listed list varied)
        exact foreign name value held (declares.of_branch branch)

section Kept

variable {pending supplier : Pending} {nodes : List Value} {leaves : List Pending} {name : String}

/-- A filling that is whole satisfies every schema that is declared for its name. -/
theorem satisfies_declared (compatible : Compatible pending.schema)
    (layout : Layout [pending] nodes leaves) (supplies : Supplies leaves name supplier)
    (others : MeetsOthers nodes name supplier) {filling : Assembly}
    (assembled : Assembled supplier filling) (whole : filling.Whole) :
    ∀ node ∈ nodes, ∀ declared, (name, declared) ∈ declaredProperties node →
      Satisfies declared filling.value := by
  intro node member declared listed
  obtain ⟨inner, laid, filled⟩ := filled_of_assembled assembled
  by_cases same : declared = supplier.schema
  · rw [same]
    exact satisfies_of_whole whole laid (fun _ member => member) supplier List.mem_cons_self
  · have meets := others node member declared listed same filling.nodes inner laid
    rw [Assembly.value_eq]
    refine satisfies_of_meets meets ?_ ?_
    · intro held sure
      obtain ⟨inside, found⟩ := filled.sure held sure
      exact ⟨inside.value, lookup_members_eq_some.mpr ⟨inside, found, rfl⟩⟩
    · -- The names that the filling has are declared by its own schema only.
      intro held value found
      obtain ⟨inside, filledIn, -⟩ := lookup_members_eq_some.mp found
      obtain ⟨origin, supplied, -⟩ := filled.supplied held inside filledIn
      obtain ⟨leaf, leafListed, -, leafDeclares⟩ := supplied.leaf
      obtain ⟨outer, outerListed, -, outerDeclares⟩ := supplies.leaf
      obtain ⟨_, sameSchema, branch⟩ := layout.branch_of_node node member
      have within := List.mem_singleton.mp sameSchema ▸ branch
      obtain ⟨disjoint, -⟩ := compatible
      exact disjoint outer.schema node (layout.branch_of_leaf outerListed) within name
        supplier.schema declared outerDeclares listed (Ne.symm same) held
        ⟨leaf.schema, laid.branch_of_leaf leafListed, List.mem_map_of_mem leafDeclares⟩

theorem Compatible.of_supplies (compatible : Compatible pending.schema)
    (layout : Layout [pending] nodes leaves) (supplies : Supplies leaves name supplier) :
    Compatible supplier.schema := by
  obtain ⟨leaf, member, -, declared⟩ := supplies.leaf
  obtain ⟨-, deeper⟩ := compatible
  exact deeper leaf.schema (layout.branch_of_leaf member) (name, supplier.schema) declared

/-- However it is assembled, a schema that keeps everything is whole. -/
theorem whole_of_assembled {assembly : Assembly} (assembled : Assembled pending assembly)
    (keeps : KeepsWhole pending) (compatible : Compatible pending.schema) : assembly.Whole := by
  induction assembled with
  | @intro pending assembly leaves supplier layout sure supplies assembled ih =>
      obtain ⟨required, supplied, shared⟩ := keeps
      have whole : ∀ name filling, assembly.fills.lookup name = some filling → filling.Whole := by
        intro name filling found
        have origin := supplies name filling found
        have kept := supplied _ leaves layout name _ origin
        exact ih name filling found kept (compatible.of_supplies layout origin)
      refine .intro ?_ whole ?_
      · intro node member name needed
        exact sure name (required _ leaves layout node member name needed)
      · intro name filling found
        have others := shared _ leaves layout name _ (supplies name filling found)
        exact satisfies_declared compatible layout (supplies name filling found) others
          (assembled name filling found) (whole name filling found)

/-- An assembly keeps its parts if the schema keeps what it requires. -/
theorem keepsParts_of_assembled {assembly : Assembly} (compatible : Compatible pending.schema)
    (keeps : KeepsRequired pending) (assembled : Assembled pending assembly) :
    assembly.KeepsParts := by
  obtain ⟨leaves, layout, filled⟩ := filled_of_assembled assembled
  intro node member name needed
  obtain ⟨filling, found⟩ := filled.sure name (keeps.sure _ leaves layout node member name needed)
  obtain ⟨supplier, supplies, filledIn⟩ := filled.supplied name filling found
  obtain ⟨kept, others⟩ := keeps.supplied _ leaves layout node member name needed supplier supplies
  have whole := whole_of_assembled filledIn kept (compatible.of_supplies layout supplies)
  refine ⟨filling, found, ?_, whole, ?_⟩
  · rw [Assembly.value_eq]
    exact lookup_members_eq_some.mpr ⟨filling, found, rfl⟩
  · exact satisfies_declared compatible layout supplies others filledIn whole

/-- A value without further names satisfies a schema only if the names that are sure suffice. -/
theorem meets_of_satisfies {schema value : Value} (satisfies : Satisfies schema value)
    (sure : ∀ name found, value.get name = some found → Sure leaves name) :
    Meets leaves schema := by
  induction satisfies with
  | intro chosen required properties parts listed variant _ eachPart eachVariant =>
      refine .intro chosen ?_ ?_ listed ?_
      · intro name needed
        obtain ⟨found, held⟩ := required name needed
        exact sure name found held
      · exact fun list joined part member => eachPart list joined part member sure
      · exact fun list varied => eachVariant list varied sure

theorem Composition.of_supplies (composition : Composition pending.schema)
    (layout : Layout [pending] nodes leaves) (supplies : Supplies leaves name supplier) :
    Composition supplier.schema ∧ supplier.levels < pending.levels := by
  obtain ⟨leaf, member, same, declared⟩ := supplies.leaf
  obtain ⟨_, listed, below⟩ := layout.levels_of_leaf leaf member
  rw [List.mem_singleton.mp listed, ← same] at below
  exact ⟨(composition.of_branch (layout.branch_of_leaf member)).property declared, below⟩

/-- If every filling from a schema satisfies what is declared, its sure names suffice for it. -/
theorem meetsOthers_of_satisfies
    (satisfies : ∀ filling, Realised supplier filling → ∀ node ∈ nodes, ∀ other,
      (name, other) ∈ declaredProperties node → Satisfies other filling.value) :
    MeetsOthers nodes name supplier := by
  intro node member other declared _ inner leaves layout
  obtain ⟨filling, realised, -, least⟩ := exists_least layout
  refine meets_of_satisfies (satisfies filling realised node member other declared) ?_
  intro held value found
  rw [Assembly.value_eq] at found
  obtain ⟨inside, filled, -⟩ := lookup_members_eq_some.mp found
  exact (least held).mp ⟨inside, filled⟩

/-- If every assembly that may be drawn is whole, nothing is lost in any layout. -/
theorem keepsWhole_of_realised (composition : Composition pending.schema)
    (whole : ∀ assembly, Realised pending assembly → assembly.Whole) : KeepsWhole pending := by
  induction depth : pending.levels using Nat.strong_induction_on generalizing pending with
  | _ depth ih =>
      refine .intro ?_ ?_ ?_
      · intro nodes leaves layout node member name needed
        obtain ⟨assembly, realised, rfl, least⟩ := exists_least layout
        obtain ⟨required, -, -⟩ := whole assembly realised
        exact (least name).mp (required node member name needed)
      · intro nodes leaves layout name supplier supplies
        obtain ⟨deeper, below⟩ := composition.of_supplies layout supplies
        refine ih _ (depth ▸ below) deeper (fun filling realised => ?_) rfl
        obtain ⟨assembly, assembled, -, found⟩ :=
          exists_supplied composition layout supplies realised
        obtain ⟨-, whole, -⟩ := whole assembly assembled
        exact whole name filling found
      · intro nodes leaves layout name supplier supplies
        refine meetsOthers_of_satisfies fun filling realised => ?_
        obtain ⟨assembly, assembled, rfl, found⟩ :=
          exists_supplied composition layout supplies realised
        obtain ⟨-, -, declared⟩ := whole assembly assembled
        exact declared name filling found

/-- If every assembly that may be drawn keeps its parts, no layout loses any. -/
theorem keepsRequired_of_realised (composition : Composition pending.schema)
    (keeps : ∀ assembly, Realised pending assembly → assembly.KeepsParts) :
    KeepsRequired pending := by
  constructor
  · intro nodes leaves layout node member name needed
    obtain ⟨assembly, realised, rfl, least⟩ := exists_least layout
    obtain ⟨filling, found, -⟩ := keeps assembly realised node member name needed
    exact (least name).mp ⟨filling, found⟩
  · intro nodes leaves layout node member name needed supplier supplies
    have deeper := (composition.of_supplies layout supplies).1
    have kept : ∀ filling, Realised supplier filling → filling.Whole ∧ ∀ other ∈ nodes, ∀ schema,
        (name, schema) ∈ declaredProperties other → Satisfies schema filling.value := by
      intro filling realised
      obtain ⟨assembly, assembled, rfl, found⟩ :=
        exists_supplied composition layout supplies realised
      obtain ⟨held, foundHeld, -, kept⟩ := keeps assembly assembled node member name needed
      rw [found, Option.some.injEq] at foundHeld
      exact foundHeld ▸ kept
    exact ⟨keepsWhole_of_realised deeper fun filling realised => (kept filling realised).1,
      meetsOthers_of_satisfies fun filling realised => (kept filling realised).2⟩

end Kept

/-- What is drawn with a script is among what is generated. -/
theorem keepsParts_of_realised {schema : Value} (composition : Composition schema)
    (keeps : KeepsAllParts schema) {assembly : Assembly}
    (realised : Realised ⟨maximumDepth + 1, schema⟩ assembly) : assembly.KeepsParts := by
  obtain ⟨script, leads⟩ := realised
  have drawn := leads []
  have generated : generateWithRng .scripted (maximumDepth + 1) schema (script ++ []) =
      .ok (assembly.value, []) := by
    rw [generateWithRng_eq_value composition, map_eq_pure_bind, Drawing.bind_run, drawn]
    rfl
  obtain ⟨found, assembled, -, kept⟩ := keeps _ _ _ Randomness.scripted_lawful _ _ _ generated
  rw [drawn, Except.ok.injEq, Prod.mk.injEq] at assembled
  exact assembled.1 ▸ kept

/--
Whatever is drawn, a composition keeps all its parts if and only if in every
layout the names that are required are sure, and no schema that may supply one
loses anything.
-/
theorem keepsAllParts_iff {schema : Value} (composition : Composition schema)
    (compatible : Compatible schema) :
    KeepsAllParts schema ↔ KeepsRequired ⟨maximumDepth + 1, schema⟩ := by
  constructor
  · intro keeps
    exact keepsRequired_of_realised composition fun assembly realised =>
      keepsParts_of_realised composition keeps realised
  · intro keeps ρ φ random lawful stream value next generated
    have ensured := ensures_assembleWithRng lawful composition (maximumDepth + 1) stream
    rw [generateWithRng_eq_value composition, map_eq_pure_bind, Drawing.bind_eq_ok] at generated
    obtain ⟨assembly, middle, assembled, same⟩ := generated
    rw [assembled] at ensured
    cases same
    exact ⟨assembly, assembled, rfl, keepsParts_of_assembled compatible keeps ensured⟩

/-- An object with properties and required names. -/
def objectSchema (properties : List (String × Value)) (required : List String) : Value :=
  .object [("properties", .object properties), ("required", .array (required.map .string)),
    ("type", .string "object")]

def conjunction (parts : List Value) : Value := .object [("allOf", .array parts)]

theorem Branch.cases_first {schema node : Value} (branch : Branch schema node) :
    node = schema ∨
      (∃ variants, variantsOf schema = some variants ∧ ∃ first ∈ variants, Branch first node) ∨
      ∃ parts, partsOf schema = some parts ∧ ∃ first ∈ parts, Branch first node := by
  induction branch with
  | self => exact .inl rfl
  | @variant _ variant _ _ listed member ih =>
      rcases ih with rfl | ⟨variants, varied, first, among, below⟩ |
        ⟨parts, joined, first, among, below⟩
      · exact .inr (.inl ⟨_, listed, variant, member, .self⟩)
      · exact .inr (.inl ⟨variants, varied, first, among, below.variant listed member⟩)
      · exact .inr (.inr ⟨parts, joined, first, among, below.variant listed member⟩)
  | @part _ part _ _ listed member ih =>
      rcases ih with rfl | ⟨variants, varied, first, among, below⟩ |
        ⟨parts, joined, first, among, below⟩
      · exact .inr (.inr ⟨_, listed, part, member, .self⟩)
      · exact .inr (.inl ⟨variants, varied, first, among, below.part listed member⟩)
      · exact .inr (.inr ⟨parts, joined, first, among, below.part listed member⟩)

theorem Composition.object {properties : List (String × Value)} {required : List String}
    (distinct : (properties.map Prod.fst).Nodup)
    (each : ∀ property ∈ properties, Composition property.2) :
    Composition (objectSchema properties required) := by
  refine .node _ ⟨by simp, ?_⟩ distinct (.inl rfl) (.inl rfl) ?_ ?_ ?_ each ?_ ?_
  · simp
  · intro key combines argument found
    simp only [List.mem_cons, List.not_mem_nil, or_false] at combines
    rcases combines with rfl | rfl | rfl <;> cases found
  · rintro _ ⟨rfl⟩
    rfl
  · rintro - - ⟨⟩
  · rintro _ ⟨⟩
  · rintro _ ⟨⟩

theorem Composition.conjunction {first second : Value} (left : Composition first)
    (right : Composition second) : Composition (conjunction [first, second]) := by
  refine .node _ ⟨by simp, ?_⟩ List.nodup_nil (.inl rfl) (.inl rfl) ?_ ?_ ?_ ?_ ?_ ?_
  · simp
  · intro key combines argument found
    simp only [List.mem_cons, List.not_mem_nil, or_false] at combines
    rcases combines with rfl | rfl | rfl <;> cases found
    exact ⟨first, [second], rfl⟩
  · rintro _ ⟨⟩
  · rintro - ⟨⟩
  · rintro _ ⟨⟩
  · rintro _ ⟨⟩
  · rintro _ ⟨rfl⟩
    exact List.forall_mem_cons.mpr ⟨left, List.forall_mem_singleton.mpr right⟩

theorem eq_of_branch_object {properties : List (String × Value)} {required : List String}
    {node : Value} (branch : Branch (objectSchema properties required) node) :
    node = objectSchema properties required := by
  rcases branch.cases_first with same | ⟨_, ⟨⟩, _⟩ | ⟨_, ⟨⟩, _⟩
  exact same

theorem Compatible.object {properties : List (String × Value)} {required : List String}
    (distinct : (properties.map Prod.fst).Nodup)
    (each : ∀ property ∈ properties, Compatible property.2) :
    Compatible (objectSchema properties required) := by
  refine .intro ?_ ?_
  · intro node other branch otherBranch name first second declared otherDeclared differs
    rw [eq_of_branch_object branch] at declared
    rw [eq_of_branch_object otherBranch] at otherDeclared
    have found := SortedEntries.lookup_of_mem distinct declared
    have again := SortedEntries.lookup_of_mem distinct otherDeclared
    exact absurd (Option.some.inj (found.symm.trans again)) differs
  · intro node branch property listed
    rw [eq_of_branch_object branch] at listed
    exact each property listed

theorem declares_object {properties : List (String × Value)} {required : List String}
    {name : String} :
    Declares (objectSchema properties required) name ↔ name ∈ properties.map Prod.fst := by
  constructor
  · rintro ⟨node, branch, named⟩
    rw [eq_of_branch_object branch] at named
    exact named
  · exact fun named => ⟨_, .self, named⟩

/-- Two objects combine if their properties of one name have no property in common. -/
theorem Compatible.conjunction {first second : List (String × Value)}
    {required needed : List String} (compatible : Compatible (objectSchema first required))
    (other : Compatible (objectSchema second needed))
    (apart : ∀ name left right, (name, left) ∈ first → (name, right) ∈ second →
      ∀ inner, Declares left inner → ¬ Declares right inner) :
    Compatible
      (SpecMock.Core.conjunction [objectSchema first required, objectSchema second needed]) := by
  obtain ⟨disjoint, deeper⟩ := compatible
  obtain ⟨otherDisjoint, otherDeeper⟩ := other
  have either : ∀ node, Branch (SpecMock.Core.conjunction
      [objectSchema first required, objectSchema second needed]) node →
        ∀ property ∈ declaredProperties node, property ∈ first ∨ property ∈ second := by
    intro node branch property listed
    rcases branch.cases_first with rfl | ⟨_, ⟨⟩, _⟩ | ⟨_, ⟨rfl⟩, part, member, below⟩
    · cases listed
    · rcases List.mem_pair.mp member with rfl | rfl
      · rw [eq_of_branch_object below] at listed
        exact .inl listed
      · rw [eq_of_branch_object below] at listed
        exact .inr listed
  refine .intro ?_ ?_
  · intro node other branch otherBranch name left right declared otherDeclared differs inner
    rcases either node branch _ declared with here | here
    · rcases either other otherBranch _ otherDeclared with there | there
      · exact disjoint _ _ .self .self name left right here there differs inner
      · exact apart name left right here there inner
    · rcases either other otherBranch _ otherDeclared with there | there
      · exact fun found again => apart name right left there here inner again found
      · exact otherDisjoint _ _ .self .self name left right here there differs inner
  · intro node branch property listed
    rcases either node branch property listed with here | here
    · exact deeper _ .self property here
    · exact otherDeeper _ .self property here

theorem Satisfies.get_required {schema value : Value} (satisfies : Satisfies schema value)
    {name : String} (needed : name ∈ requiredSet schema) :
    ∃ found, value.get name = some found := by
  obtain ⟨_, required, -, -, -, -⟩ := satisfies
  exact required name needed

theorem Composition.single {inner : Value} (composition : Composition inner) (name : String)
    (required : List String) : Composition (objectSchema [(name, inner)] required) :=
  .object (List.nodup_singleton _) (List.forall_mem_singleton.mpr composition)

theorem Compatible.single {inner : Value} (compatible : Compatible inner) (name : String)
    (required : List String) : Compatible (objectSchema [(name, inner)] required) :=
  .object (List.nodup_singleton _) (List.forall_mem_singleton.mpr compatible)

def bareObject : Value := objectSchema [] []

theorem bareObject_composition : Composition bareObject := .object List.nodup_nil (by simp)

theorem bareObject_compatible : Compatible bareObject := .object List.nodup_nil (by simp)

/-- An object is laid out as itself. -/
theorem layout_object {levels : Nat} {properties : List (String × Value)} {required : List String}
    {rest leaves : List Pending} {nodes : List Value}
    (layout : Layout (⟨levels, objectSchema properties required⟩ :: rest) nodes leaves) :
    ∃ fewer others more, nodes = objectSchema properties required :: others ∧
      leaves = ⟨fewer, objectSchema properties required⟩ :: more ∧ Layout rest others more := by
  cases layout with
  | plain _ _ _ others => exact ⟨_, _, _, rfl, rfl, others⟩
  | variant listed => cases listed
  | parts _ listed => cases listed

theorem bareObject_keepsWhole (levels : Nat) : KeepsWhole ⟨levels, bareObject⟩ := by
  have shape : ∀ nodes leaves, Layout [⟨levels, bareObject⟩] nodes leaves →
      nodes = [bareObject] ∧ ∀ name supplier, ¬ Supplies leaves name supplier := by
    intro nodes leaves layout
    obtain ⟨fewer, others, more, rfl, rfl, rest⟩ := layout_object layout
    cases rest
    refine ⟨rfl, fun name supplier supplies => ?_⟩
    obtain ⟨leaf, member, -, declared⟩ := supplies.leaf
    rw [List.mem_singleton.mp member] at declared
    cases declared
  refine .intro ?_ ?_ ?_
  · intro nodes leaves layout node member name needed
    rw [(shape nodes leaves layout).1] at member
    rw [List.mem_singleton.mp member] at needed
    cases needed
  · intro nodes leaves layout name supplier supplies
    exact absurd supplies ((shape nodes leaves layout).2 name supplier)
  · intro nodes leaves layout name supplier supplies
    exact absurd supplies ((shape nodes leaves layout).2 name supplier)

/-- Two parts that require a property each. -/
def complementary : Value :=
  conjunction [objectSchema [("a", bareObject)] ["a"], objectSchema [("b", bareObject)] ["b"]]

/-- What the parts require of different names is kept. -/
theorem complementary_kept : KeepsAllParts complementary := by
  have composition : Composition complementary :=
    .conjunction (bareObject_composition.single "a" ["a"]) (bareObject_composition.single "b" ["b"])
  have compatible : Compatible complementary := by
    refine .conjunction (bareObject_compatible.single "a" ["a"])
      (bareObject_compatible.single "b" ["b"]) ?_
    intro name left right here there
    simp only [List.mem_singleton, Prod.mk.injEq] at here there
    exact absurd (here.1.symm.trans there.1) (by decide)
  have shape : ∀ nodes leaves, Layout [⟨maximumDepth + 1, complementary⟩] nodes leaves →
      ∃ left right : Nat,
        nodes = [complementary, objectSchema [("a", bareObject)] ["a"],
          objectSchema [("b", bareObject)] ["b"]] ∧
        leaves = [⟨left, objectSchema [("a", bareObject)] ["a"]⟩,
          ⟨right, objectSchema [("b", bareObject)] ["b"]⟩] := by
    intro nodes leaves layout
    cases layout with
    | plain _ unjoined => cases unjoined
    | variant listed => cases listed
    | parts _ listed others =>
        cases listed
        obtain ⟨left, _, _, rfl, rfl, second⟩ := layout_object others
        obtain ⟨right, _, _, rfl, rfl, rest⟩ := layout_object second
        cases rest
        exact ⟨left, right, rfl, rfl⟩
  refine (keepsAllParts_iff composition compatible).mpr ⟨?_, ?_⟩
  · intro nodes leaves layout node member name needed
    obtain ⟨left, right, rfl, rfl⟩ := shape nodes leaves layout
    rcases List.mem_cons.mp member with rfl | part
    · cases needed
    · rcases List.mem_pair.mp part with rfl | rfl
      · exact ⟨_, List.mem_cons_self, needed, needed⟩
      · exact ⟨_, List.mem_cons_of_mem _ List.mem_cons_self, needed, needed⟩
  · intro nodes leaves layout node member name needed supplier supplies
    have only : ∀ node ∈ nodes, ∀ name schema, (name, schema) ∈ declaredProperties node →
        schema = bareObject := by
      obtain ⟨left, right, rfl, rfl⟩ := shape nodes leaves layout
      intro node member name schema declared
      rcases List.mem_cons.mp member with rfl | part
      · cases declared
      · rcases List.mem_pair.mp part with rfl | rfl
        · exact (Prod.mk.inj (List.mem_singleton.mp declared)).2
        · exact (Prod.mk.inj (List.mem_singleton.mp declared)).2
    obtain ⟨leaf, listed, -, declared⟩ := supplies.leaf
    have bare := only leaf.schema (layout.node_of_leaf leaf listed) name _ declared
    constructor
    · obtain ⟨levels, schema⟩ := supplier
      cases bare
      exact bareObject_keepsWhole levels
    · intro other among second described differs
      exact absurd ((only other among name second described).trans bare.symm) differs

/-- Two parts describe `p`: the first one requires `x` in it, the second one has `y` in it. -/
def overlapping : Value :=
  conjunction [objectSchema [("p", objectSchema [("x", bareObject)] ["x"])] ["p"],
    objectSchema [("p", objectSchema [("y", bareObject)] [])] ["p"]]

/-- The second part takes the place of what the first one requires. -/
theorem overlapping_not_kept :
    Composition overlapping ∧ Compatible overlapping ∧ ¬ KeepsAllParts overlapping := by
  refine ⟨.conjunction ?_ ?_, .conjunction ?_ ?_ ?_, fun keeps => ?_⟩
  · exact (bareObject_composition.single "x" ["x"]).single "p" ["p"]
  · exact (bareObject_composition.single "y" []).single "p" ["p"]
  · exact (bareObject_compatible.single "x" ["x"]).single "p" ["p"]
  · exact (bareObject_compatible.single "y" []).single "p" ["p"]
  · intro name left right here there inner
    rw [List.mem_singleton] at here there
    cases here
    cases there
    rw [declares_object, declares_object, List.map_singleton, List.map_singleton,
      List.mem_singleton, List.mem_singleton]
    rintro rfl
    decide
  · obtain ⟨assembly, assembled, -, kept⟩ :=
      keeps _ _ (Randomness.fixed 0) (Randomness.fixed_lawful 0) () _ () rfl
    cases assembled
    obtain ⟨filling, found, -, -, declared⟩ := kept
      (objectSchema [("p", objectSchema [("x", bareObject)] ["x"])] ["p"])
      (List.mem_cons_of_mem _ List.mem_cons_self) "p" List.mem_cons_self
    cases found
    have lost := declared _ (List.mem_cons_of_mem _ List.mem_cons_self) _ List.mem_cons_self
    obtain ⟨value, held⟩ := lost.get_required List.mem_cons_self
    cases held

end SpecMock.Core
