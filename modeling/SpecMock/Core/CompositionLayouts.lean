import SpecMock.Core.Compositions

/-!
# Layouts of compositions

A choice of variants lays a composition out as a list of plain nodes, which
are generated one after the other.  What a layout is sure to contain, and
which schema may supply a name, decides what the value keeps.
-/

namespace SpecMock.Core

open SpecMock.Library Faker

/-- A schema to generate from, with the levels that are left for it. -/
structure Pending where
  levels : Nat
  schema : Value

/-- Some draws generate a value within the levels. -/
inductive Generable : Pending → Prop where
  | plain {levels : Nat} {schema : Value} (unvaried : variantsOf schema = none)
      (unjoined : partsOf schema = none)
      (live : ∀ property ∈ declaredProperties schema, property.1 ∈ requiredSet schema →
        Generable ⟨levels, property.2⟩) : Generable ⟨levels + 1, schema⟩
  | variant {levels : Nat} {schema variant : Value} {variants : List Value}
      (listed : variantsOf schema = some variants) (member : variant ∈ variants)
      (chosen : Generable ⟨levels, variant⟩) : Generable ⟨levels + 1, schema⟩
  | parts {levels : Nat} {schema : Value} {parts : List Value}
      (unvaried : variantsOf schema = none) (listed : partsOf schema = some parts)
      (each : ∀ part ∈ parts, Generable ⟨levels, part⟩) : Generable ⟨levels + 1, schema⟩

/--
The nodes in force for schemas in a row, with a variant chosen wherever there
are any, and the plain nodes among them, whose properties are generated.
-/
inductive Layout : List Pending → List Value → List Pending → Prop where
  | done : Layout [] [] []
  | plain {levels : Nat} {schema : Value} {nodes : List Value} {rest leaves : List Pending}
      (unvaried : variantsOf schema = none) (unjoined : partsOf schema = none)
      (live : ∀ property ∈ declaredProperties schema, property.1 ∈ requiredSet schema →
        Generable ⟨levels, property.2⟩)
      (others : Layout rest nodes leaves) :
      Layout (⟨levels + 1, schema⟩ :: rest) (schema :: nodes) (⟨levels, schema⟩ :: leaves)
  | variant {levels : Nat} {schema variant : Value} {variants nodes : List Value}
      {rest leaves : List Pending} (listed : variantsOf schema = some variants)
      (unjoined : partsOf schema = none) (member : variant ∈ variants)
      (others : Layout (⟨levels, variant⟩ :: rest) nodes leaves) :
      Layout (⟨levels + 1, schema⟩ :: rest) (schema :: nodes) leaves
  | parts {levels : Nat} {schema : Value} {parts nodes : List Value} {rest leaves : List Pending}
      (unvaried : variantsOf schema = none) (listed : partsOf schema = some parts)
      (others : Layout (parts.map (Pending.mk levels) ++ rest) nodes leaves) :
      Layout (⟨levels + 1, schema⟩ :: rest) (schema :: nodes) leaves

/-- A plain node requires a property that it declares. -/
def Sure (leaves : List Pending) (name : String) : Prop :=
  ∃ leaf ∈ leaves, name ∈ requiredSet leaf.schema ∧
    name ∈ (declaredProperties leaf.schema).map Prod.fst

/-- A schema may supply the value of a name: after its node none is sure to replace it. -/
def Supplies (leaves : List Pending) (name : String) (supplier : Pending) : Prop :=
  ∃ before leaf after, leaves = before ++ leaf :: after ∧ supplier.levels = leaf.levels ∧
    (name, supplier.schema) ∈ declaredProperties leaf.schema ∧ Generable supplier ∧
      ¬ Sure after name

/-- The names that are sure suffice for a schema, its parts and one of its variants. -/
inductive Meets (leaves : List Pending) : Value → Prop where
  | intro {schema : Value} (chosen : Value)
      (required : ∀ name ∈ requiredSet schema, Sure leaves name)
      (parts : ∀ parts, partsOf schema = some parts → ∀ part ∈ parts, Meets leaves part)
      (listed : ∀ variants, variantsOf schema = some variants → chosen ∈ variants)
      (variant : ∀ variants, variantsOf schema = some variants → Meets leaves chosen) :
      Meets leaves schema

/-- What a supplier always generates meets every other schema that is declared for its name. -/
def MeetsOthers (nodes : List Value) (name : String) (supplier : Pending) : Prop :=
  ∀ node ∈ nodes, ∀ other, (name, other) ∈ declaredProperties node → other ≠ supplier.schema →
    ∀ inner leaves, Layout [supplier] inner leaves → Meets leaves other

/-- However a schema is laid out, nothing is lost at any depth. -/
inductive KeepsWhole : Pending → Prop where
  | intro {pending : Pending}
      (required : ∀ nodes leaves, Layout [pending] nodes leaves →
        ∀ node ∈ nodes, ∀ name ∈ requiredSet node, Sure leaves name)
      (supplied : ∀ nodes leaves, Layout [pending] nodes leaves →
        ∀ name supplier, Supplies leaves name supplier → KeepsWhole supplier)
      (shared : ∀ nodes leaves, Layout [pending] nodes leaves →
        ∀ name supplier, Supplies leaves name supplier → MeetsOthers nodes name supplier) :
      KeepsWhole pending

/-- However a schema is laid out, what it requires is sure, and nothing of it is lost. -/
structure KeepsRequired (pending : Pending) : Prop where
  sure : ∀ nodes leaves, Layout [pending] nodes leaves →
    ∀ node ∈ nodes, ∀ name ∈ requiredSet node, Sure leaves name
  supplied : ∀ nodes leaves, Layout [pending] nodes leaves →
    ∀ node ∈ nodes, ∀ name ∈ requiredSet node, ∀ supplier, Supplies leaves name supplier →
      KeepsWhole supplier ∧ MeetsOthers nodes name supplier

theorem Declares.of_branch {schema branch : Value} (within : Branch schema branch)
    {name : String} (declares : Declares branch name) : Declares schema name := by
  obtain ⟨node, below, named⟩ := declares
  exact ⟨node, within.trans below, named⟩

namespace Layout

variable {pending leaves : List Pending} {nodes : List Value}

theorem append (layout : Layout pending nodes leaves) {others moreLeaves : List Pending}
    {moreNodes : List Value} (more : Layout others moreNodes moreLeaves) :
    Layout (pending ++ others) (nodes ++ moreNodes) (leaves ++ moreLeaves) := by
  induction layout with
  | done => exact more
  | plain unvaried unjoined live _ ih => exact .plain unvaried unjoined live ih
  | variant listed unjoined member _ ih => exact .variant listed unjoined member ih
  | parts unvaried listed _ ih =>
      rw [List.append_assoc] at ih
      exact .parts unvaried listed ih

/-- Every node in force is a branch of one of the schemas. -/
theorem branch_of_node (layout : Layout pending nodes leaves) :
    ∀ node ∈ nodes, ∃ first ∈ pending, Branch first.schema node := by
  induction layout with
  | done => exact fun node member => absurd member List.not_mem_nil
  | plain _ _ _ _ ih =>
      rintro node (_ | ⟨_, later⟩)
      · exact ⟨_, List.mem_cons_self, .self⟩
      · obtain ⟨first, listed, branch⟩ := ih node later
        exact ⟨first, List.mem_cons_of_mem _ listed, branch⟩
  | variant listed _ member _ ih =>
      rintro node (_ | ⟨_, later⟩)
      · exact ⟨_, List.mem_cons_self, .self⟩
      · obtain ⟨first, among, branch⟩ := ih node later
        rcases List.mem_cons.mp among with rfl | rest
        · exact ⟨_, List.mem_cons_self, (Branch.self.variant listed member).trans branch⟩
        · exact ⟨first, List.mem_cons_of_mem _ rest, branch⟩
  | parts _ listed _ ih =>
      rintro node (_ | ⟨_, later⟩)
      · exact ⟨_, List.mem_cons_self, .self⟩
      · obtain ⟨first, among, branch⟩ := ih node later
        rcases List.mem_append.mp among with mapped | rest
        · obtain ⟨part, member, rfl⟩ := List.mem_map.mp mapped
          exact ⟨_, List.mem_cons_self, (Branch.self.part listed member).trans branch⟩
        · exact ⟨first, List.mem_cons_of_mem _ rest, branch⟩

theorem node_of_leaf (layout : Layout pending nodes leaves) :
    ∀ leaf ∈ leaves, leaf.schema ∈ nodes := by
  induction layout with
  | done => exact fun leaf member => absurd member List.not_mem_nil
  | plain _ _ _ _ ih =>
      rintro leaf (_ | ⟨_, later⟩)
      · exact List.mem_cons_self
      · exact List.mem_cons_of_mem _ (ih leaf later)
  | variant _ _ _ _ ih => exact fun leaf member => List.mem_cons_of_mem _ (ih leaf member)
  | parts _ _ _ ih => exact fun leaf member => List.mem_cons_of_mem _ (ih leaf member)

/-- The required properties of a plain node can be generated. -/
theorem live_of_leaf (layout : Layout pending nodes leaves) :
    ∀ leaf ∈ leaves, ∀ property ∈ declaredProperties leaf.schema,
      property.1 ∈ requiredSet leaf.schema → Generable ⟨leaf.levels, property.2⟩ := by
  induction layout with
  | done => exact fun leaf member => absurd member List.not_mem_nil
  | plain _ _ live _ ih =>
      rintro leaf (_ | ⟨_, later⟩)
      · exact live
      · exact ih leaf later
  | variant _ _ _ _ ih => exact ih
  | parts _ _ _ ih => exact ih

/-- A plain node has fewer levels left than the schema that it comes from. -/
theorem levels_of_leaf (layout : Layout pending nodes leaves) :
    ∀ leaf ∈ leaves, ∃ first ∈ pending, leaf.levels < first.levels := by
  induction layout with
  | done => exact fun leaf member => absurd member List.not_mem_nil
  | plain _ _ _ _ ih =>
      rintro leaf (_ | ⟨_, later⟩)
      · exact ⟨_, List.mem_cons_self, Nat.lt_succ_self _⟩
      · obtain ⟨first, listed, below⟩ := ih leaf later
        exact ⟨first, List.mem_cons_of_mem _ listed, below⟩
  | variant _ _ _ _ ih =>
      intro leaf member
      obtain ⟨first, among, below⟩ := ih leaf member
      rcases List.mem_cons.mp among with rfl | rest
      · exact ⟨_, List.mem_cons_self, below.trans (Nat.lt_succ_self _)⟩
      · exact ⟨first, List.mem_cons_of_mem _ rest, below⟩
  | parts _ _ _ ih =>
      intro leaf member
      obtain ⟨first, among, below⟩ := ih leaf member
      rcases List.mem_append.mp among with mapped | rest
      · obtain ⟨part, -, rfl⟩ := List.mem_map.mp mapped
        exact ⟨_, List.mem_cons_self, below.trans (Nat.lt_succ_self _)⟩
      · exact ⟨first, List.mem_cons_of_mem _ rest, below⟩

/-- What is laid out can be generated. -/
theorem generable (layout : Layout pending nodes leaves) : ∀ first ∈ pending, Generable first := by
  induction layout with
  | done => exact fun first member => absurd member List.not_mem_nil
  | plain unvaried unjoined live _ ih =>
      exact List.forall_mem_cons.mpr ⟨.plain unvaried unjoined live, ih⟩
  | variant listed _ member _ ih =>
      obtain ⟨chosen, rest⟩ := List.forall_mem_cons.mp ih
      exact List.forall_mem_cons.mpr ⟨.variant listed member chosen, rest⟩
  | parts unvaried listed _ ih =>
      obtain ⟨each, rest⟩ := List.forall_mem_append.mp ih
      refine List.forall_mem_cons.mpr ⟨.parts unvaried listed fun part member => ?_, rest⟩
      exact each _ (List.mem_map_of_mem member)

theorem branch_of_leaf {first : Pending} (layout : Layout [first] nodes leaves) {leaf : Pending}
    (member : leaf ∈ leaves) : Branch first.schema leaf.schema := by
  obtain ⟨_, same, branch⟩ := layout.branch_of_node leaf.schema (layout.node_of_leaf leaf member)
  exact List.mem_singleton.mp same ▸ branch

end Layout

theorem Supplies.leaf {leaves : List Pending} {name : String} {supplier : Pending}
    (supplies : Supplies leaves name supplier) : ∃ leaf ∈ leaves,
      supplier.levels = leaf.levels ∧ (name, supplier.schema) ∈ declaredProperties leaf.schema := by
  obtain ⟨before, leaf, after, rfl, same, declared, -, -⟩ := supplies
  exact ⟨leaf, by simp, same, declared⟩

/-- An assembly fills what some layout of the schema allows. -/
inductive Assembled : Pending → Assembly → Prop where
  | intro {pending : Pending} {assembly : Assembly} (leaves : List Pending)
      (supplier : String → Pending) (layout : Layout [pending] assembly.nodes leaves)
      (sure : ∀ name, Sure leaves name → ∃ filling, assembly.fills.lookup name = some filling)
      (supplies : ∀ name filling, assembly.fills.lookup name = some filling →
        Supplies leaves name (supplier name))
      (assembled : ∀ name filling, assembly.fills.lookup name = some filling →
        Assembled (supplier name) filling) : Assembled pending assembly

/-- Names are filled as plain nodes in a row fill them. -/
structure Filled (leaves : List Pending) (fills : List (String × Assembly)) : Prop where
  sure : ∀ name, Sure leaves name → ∃ filling, fills.lookup name = some filling
  supplied : ∀ name filling, fills.lookup name = some filling →
    ∃ supplier, Supplies leaves name supplier ∧ Assembled supplier filling

theorem assembled_of_filled {pending : Pending} {assembly : Assembly} {leaves : List Pending}
    (layout : Layout [pending] assembly.nodes leaves) (filled : Filled leaves assembly.fills) :
    Assembled pending assembly := by
  classical
  have each : ∀ name, ∃ supplier, ∀ filling, assembly.fills.lookup name = some filling →
      Supplies leaves name supplier ∧ Assembled supplier filling := by
    intro name
    cases found : assembly.fills.lookup name with
    | none => exact ⟨pending, fun filling same => by cases same⟩
    | some filling =>
        obtain ⟨supplier, supplies, assembled⟩ := filled.supplied name filling found
        exact ⟨supplier, fun _ same => Option.some.inj same ▸ ⟨supplies, assembled⟩⟩
  choose supplier supplies using each
  exact .intro leaves supplier layout filled.sure
    (fun name filling found => (supplies name filling found).1)
    (fun name filling found => (supplies name filling found).2)

theorem filled_of_assembled {pending : Pending} {assembly : Assembly}
    (assembled : Assembled pending assembly) :
    ∃ leaves, Layout [pending] assembly.nodes leaves ∧ Filled leaves assembly.fills := by
  cases assembled with
  | intro leaves supplier layout sure supplies assembled =>
      exact ⟨leaves, layout, sure, fun name filling found =>
        ⟨supplier name, supplies name filling found, assembled name filling found⟩⟩

theorem Assembled.generable {pending : Pending} {assembly : Assembly}
    (assembled : Assembled pending assembly) : Generable pending := by
  obtain ⟨leaves, layout, -⟩ := filled_of_assembled assembled
  exact layout.generable pending List.mem_cons_self

theorem sure_append {earlier later : List Pending} {name : String} :
    Sure (earlier ++ later) name ↔ Sure earlier name ∨ Sure later name := by
  constructor
  · rintro ⟨leaf, member, named⟩
    rcases List.mem_append.mp member with before | after
    · exact .inl ⟨leaf, before, named⟩
    · exact .inr ⟨leaf, after, named⟩
  · rintro (⟨leaf, member, named⟩ | ⟨leaf, member, named⟩)
    · exact ⟨leaf, List.mem_append_left _ member, named⟩
    · exact ⟨leaf, List.mem_append_right _ member, named⟩

/-- Later nodes fill over what earlier ones filled. -/
theorem Filled.append {earlier later : List Pending} {fills added : List (String × Assembly)}
    (before : Filled earlier fills) (after : Filled later added) :
    Filled (earlier ++ later) (added ++ fills) := by
  constructor
  · intro name sure
    rw [List.lookup_append]
    rcases sure_append.mp sure with here | there
    · obtain ⟨filling, found⟩ := before.sure name here
      rw [found]
      cases added.lookup name with
      | none => exact ⟨filling, rfl⟩
      | some replaced => exact ⟨replaced, rfl⟩
    · obtain ⟨filling, found⟩ := after.sure name there
      exact ⟨filling, by rw [found]; rfl⟩
  · intro name filling found
    rw [List.lookup_append] at found
    rcases Option.or_eq_some_iff.mp found with last | ⟨missing, first⟩
    · obtain ⟨supplier, ⟨front, leaf, back, split, supplies⟩, assembled⟩ :=
        after.supplied name filling last
      exact ⟨supplier, ⟨earlier ++ front, leaf, back, by simp [split], supplies⟩, assembled⟩
    · obtain ⟨supplier, ⟨front, leaf, back, split, same, declared, live, unsure⟩, assembled⟩ :=
        before.supplied name filling first
      have never : ¬ Sure (back ++ later) name := by
        intro sure
        rcases sure_append.mp sure with here | there
        · exact unsure here
        · obtain ⟨other, present⟩ := after.sure name there
          rw [missing] at present
          cases present
      exact ⟨supplier, ⟨front, leaf, back ++ later, by simp [split], same, declared, live, never⟩,
        assembled⟩

/-- Names are filled from the properties so far, and no required one is left out. -/
structure FilledFrom (levels : Nat) (required : List String) (done : List (String × Value))
    (assembly : Assembly) : Prop where
  bare : assembly.nodes = []
  declared : ∀ name filling, assembly.fills.lookup name = some filling →
    ∃ schema, (name, schema) ∈ done ∧ Assembled ⟨levels, schema⟩ filling
  present : ∀ property ∈ done, property.1 ∈ required →
    Generable ⟨levels, property.2⟩ ∧ ∃ filling, assembly.fills.lookup property.1 = some filling

namespace FilledFrom

variable {levels : Nat} {required : List String} {done : List (String × Value)}
  {assembly : Assembly} {property : String × Value}

theorem none (levels : Nat) (required : List String) : FilledFrom levels required [] .empty :=
  ⟨rfl, fun _ _ found => (by cases found), fun _ member => absurd member List.not_mem_nil⟩

theorem skip (so : FilledFrom levels required done assembly) (optional : property.1 ∉ required) :
    FilledFrom levels required (done ++ [property]) assembly := by
  refine ⟨so.bare, ?_, ?_⟩
  · intro name filling found
    obtain ⟨schema, declared, assembled⟩ := so.declared name filling found
    exact ⟨schema, List.mem_append_left _ declared, assembled⟩
  · intro other listed needed
    rcases List.mem_append.mp listed with earlier | last
    · exact so.present other earlier needed
    · exact absurd (List.mem_singleton.mp last ▸ needed) optional

theorem fill (so : FilledFrom levels required done assembly) {filling : Assembly}
    (assembled : Assembled ⟨levels, property.2⟩ filling) :
    FilledFrom levels required (done ++ [property]) (assembly.fill property.1 filling) := by
  refine ⟨so.bare, ?_, ?_⟩
  · intro name found
    change List.lookup name ((property.1, filling) :: assembly.fills) = _ → _
    rw [SortedEntries.lookup_cons_eq]
    split
    next same =>
      rintro ⟨rfl⟩
      exact ⟨property.2, by simp [same], assembled⟩
    next =>
      intro earlier
      obtain ⟨schema, declared, assembled⟩ := so.declared name found earlier
      exact ⟨schema, List.mem_append_left _ declared, assembled⟩
  · intro other listed needed
    change _ ∧ ∃ held, List.lookup other.1 ((property.1, filling) :: assembly.fills) = some held
    rw [SortedEntries.lookup_cons_eq]
    rcases List.mem_append.mp listed with earlier | last
    · obtain ⟨live, present⟩ := so.present other earlier needed
      refine ⟨live, ?_⟩
      split
      next => exact ⟨filling, rfl⟩
      next => exact present
    · rw [List.mem_singleton] at last
      subst last
      rw [if_pos rfl]
      exact ⟨assembled.generable, filling, rfl⟩

/-- A plain node fills names as a layout of it alone does. -/
theorem filled {schema : Value}
    (so : FilledFrom levels (requiredSet schema) (declaredProperties schema) assembly) :
    Filled [⟨levels, schema⟩] assembly.fills := by
  constructor
  · rintro name ⟨leaf, member, needed, declared⟩
    rw [List.mem_singleton] at member
    subst member
    obtain ⟨property, listed, rfl⟩ := List.mem_map.mp declared
    exact (so.present property listed needed).2
  · intro name filling found
    obtain ⟨supplier, declared, assembled⟩ := so.declared name filling found
    refine ⟨⟨levels, supplier⟩, ⟨[], ⟨levels, schema⟩, [], rfl, rfl, declared,
      assembled.generable, ?_⟩, assembled⟩
    rintro ⟨leaf, member, -⟩
    cases member

end FilledFrom

theorem variantsOf_ne_nil {schema : Value} {variants : List Value}
    (listed : variantsOf schema = some variants) : variants ≠ [] := by
  have kept := (Option.filter_eq_some_iff.mp listed).2
  rintro rfl
  cases kept

section Generated

open Drawing

variable {ρ φ : Type} {random : Randomness ρ φ} {assemble : Value → Generator ρ Assembly}
  {levels : Nat}

theorem ensures_assembleProperties (required : List String) {properties : List (String × Value)}
    (each : ∀ property ∈ properties,
      Ensures (assemble property.2) (Assembled ⟨levels, property.2⟩) True) :
    Ensures (assembleProperties random assemble required properties)
      (FilledFrom levels required properties) True := by
  refine ensures_foldlM (FilledFrom levels required) (.none levels required) ?_
  intro done property left assembly split so
  have listed : property ∈ properties := by simp [split]
  have taken : Ensures (do
        let filling ← assemble property.2
        return assembly.fill property.1 filling)
      (FilledFrom levels required (done ++ [property])) True := by
    refine (each property listed).bind fun filling assembled => ?_
    exact ensures_pure (so.fill assembled)
  exact ensures_optional (ensures_randomBool 35) taken so.skip

theorem ensures_assembleParts {parts : List Value}
    (each : ∀ part ∈ parts, Ensures (assemble part) (Assembled ⟨levels, part⟩) True) :
    Ensures (assembleParts assemble parts) (fun assembly => ∃ leaves,
      Layout (parts.map (Pending.mk levels)) assembly.nodes leaves ∧
        Filled leaves assembly.fills) True := by
  refine ensures_foldlM (fun done (assembly : Assembly) => ∃ leaves,
    Layout (done.map (Pending.mk levels)) assembly.nodes leaves ∧ Filled leaves assembly.fills)
    ⟨[], .done, ?_, fun _ _ found => (by cases found)⟩ ?_
  · rintro name ⟨leaf, member, -⟩
    cases member
  · intro done part left assembly split so
    obtain ⟨leaves, layout, filled⟩ := so
    refine (each part (by simp [split])).bind fun later assembled => ?_
    obtain ⟨more, laid, added⟩ := filled_of_assembled assembled
    refine ensures_pure ⟨leaves ++ more, ?_, filled.append added⟩
    rw [List.map_append]
    exact layout.append laid

/-- Whatever is drawn, a layout of the composition is assembled. -/
theorem ensures_assembleWithRng (lawful : random.Lawful) {schema : Value}
    (composition : Composition schema) (levels : Nat) :
    Ensures (assembleWithRng random levels schema) (Assembled ⟨levels, schema⟩) True := by
  induction composition generalizing levels with
  | node keywords plain distinct single apart combined objects typed properties variants parts
      eachProperty eachVariant eachPart =>
      cases levels with
      | zero => exact ensures_throw trivial
      | succ levels =>
          have laid : Ensures (assembleNode random (assembleWithRng random levels)
              (.object keywords)) (fun assembly => ∃ leaves,
                Layout [⟨levels + 1, .object keywords⟩] (.object keywords :: assembly.nodes)
                  leaves ∧ Filled leaves assembly.fills) True := by
            unfold assembleNode
            cases varied : variantsOf (.object keywords) with
            | some list =>
                refine (ensures_drawItem lawful (variantsOf_ne_nil varied)).bind
                  fun index member => ?_
                refine (eachVariant list varied _ member levels).mono ?_ id
                intro assembly assembled
                obtain ⟨leaves, layout, filled⟩ := filled_of_assembled assembled
                have unjoined := apart.resolve_left (by simp [varied])
                exact ⟨leaves, .variant varied unjoined member layout, filled⟩
            | none =>
                cases joined : partsOf (.object keywords) with
                | some list =>
                    refine (ensures_assembleParts fun part listed =>
                      eachPart list joined part listed levels).mono ?_ id
                    rintro assembly ⟨leaves, layout, filled⟩
                    refine ⟨leaves, .parts varied joined ?_, filled⟩
                    rwa [List.append_nil]
                | none =>
                    refine (ensures_assembleProperties _ fun property listed =>
                      eachProperty property listed levels).mono ?_ id
                    intro assembly so
                    rw [so.bare]
                    exact ⟨[⟨levels, .object keywords⟩], .plain varied joined
                      (fun property listed needed => (so.present property listed needed).1) .done,
                      so.filled⟩
          refine laid.bind fun assembly so => ?_
          obtain ⟨leaves, layout, filled⟩ := so
          exact ensures_pure (assembled_of_filled layout filled)

end Generated

end SpecMock.Core
