import SpecMock.Core.CompositionLayouts
import SpecMock.Library.Attempt
import Mathlib.Data.List.Nodup

/-!
# Scripts for compositions

Every layout of a composition comes about by some draws.  A script of draws is
put together along the layout, with the optional properties that are wanted.
-/

namespace SpecMock.Core

open SpecMock.Library

/-- Randomness that follows a script of wanted numbers, where one stands for true. -/
def Randomness.scripted : Randomness (List Int) Unit where
  seedFromU64 _ := []
  randomRange low high script :=
    (if low ≤ script.headD low ∧ script.headD low ≤ high then script.headD low else low,
      script.tail)
  randomBool _ script := (script.headD 0 == 1, script.tail)
  regex _ := none
  floatRange _ _ script := ((), script)
  float _ := ()
  addFloat _ _ := ()
  ltFloat _ _ := false
  floatValue _ := .number (.int 0)

theorem Randomness.scripted_lawful : Randomness.scripted.Lawful := by
  intro low high script ordered
  change low ≤ (if _ then _ else _) ∧ (if _ then _ else _) ≤ high
  split
  next inside => exact inside
  next => exact ⟨le_refl low, ordered⟩

open Faker Drawing

/-- Some script leads to the assembly. -/
def Realised (pending : Pending) (assembly : Assembly) : Prop :=
  ∃ script, Leads (assembleWithRng .scripted pending.levels pending.schema) script assembly

theorem leads_randomIndex {bound index : Nat} (below : index < bound) :
    Leads (randomIndex .scripted bound) [(index : Int)] index := by
  have drawn : Leads (randomRange .scripted 0 ((bound : Int) - 1)) [(index : Int)]
      (index : Int) := by
    intro rest
    have inside : (0 : Int) ≤ index ∧ (index : Int) ≤ (bound : Int) - 1 := by omega
    exact congrArg (fun drawn => Except.ok (drawn, rest)) (if_pos inside)
  have last : Leads (pure (index : Int).toNat : Generator (List Int) Nat) [] index := fun _ => rfl
  exact drawn.bind last

theorem leads_randomBool (percent : Nat) (wanted : Bool) :
    Leads (randomBool .scripted percent) [if wanted then 1 else 0] wanted := by
  intro rest
  cases wanted <;> rfl

/-- Fillings of the properties in turn, of all the required ones and some others. -/
inductive Picks (levels : Nat) (required : List String) :
    List (String × Value) → List (String × Assembly) → Prop where
  | done : Picks levels required [] []
  | take {property : String × Value} {rest : List (String × Value)} {filling : Assembly}
      {picks : List (String × Assembly)} (realised : Realised ⟨levels, property.2⟩ filling)
      (others : Picks levels required rest picks) :
      Picks levels required (property :: rest) ((property.1, filling) :: picks)
  | skip {property : String × Value} {rest : List (String × Value)}
      {picks : List (String × Assembly)} (optional : property.1 ∉ required)
      (others : Picks levels required rest picks) :
      Picks levels required (property :: rest) picks

section Properties

variable {assemble : Value → Generator (List Int) Assembly} {required : List String}
  {property : String × Value}

theorem exists_script_take {script : List Int} {filling : Assembly}
    (leads : Leads (assemble property.2) script filling) (start : Assembly) :
    ∃ more, Leads (assembleProperty .scripted assemble required start property) more
      (start.fill property.1 filling) := by
  have taken : Leads (do
        let filling ← assemble property.2
        return start.fill property.1 filling) (script ++ []) (start.fill property.1 filling) :=
    leads.bind (leads_pure (start.fill property.1 filling))
  unfold assembleProperty
  dsimp only
  split
  next => exact ⟨_, taken⟩
  next => exact ⟨_, (leads_randomBool 35 true).bind taken⟩

theorem exists_script_skip (optional : property.1 ∉ required) (start : Assembly) :
    ∃ more, Leads (assembleProperty .scripted assemble required start property) more start := by
  unfold assembleProperty
  dsimp only
  rw [if_neg optional]
  exact ⟨_, (leads_randomBool 35 false).bind (leads_pure start)⟩

end Properties

theorem exists_script_properties {levels : Nat} {required : List String}
    {properties : List (String × Value)} {picks : List (String × Assembly)}
    (picked : Picks levels required properties picks) (start : Assembly) :
    ∃ script, Leads (properties.foldlM
        (assembleProperty .scripted (assembleWithRng .scripted levels) required) start) script
      (.mk start.nodes (picks.reverse ++ start.fills)) := by
  induction picked generalizing start with
  | done =>
      cases start
      exact ⟨[], leads_pure _⟩
  | @take property rest filling picks realised _ ih =>
      obtain ⟨script, leads⟩ := realised
      obtain ⟨first, taken⟩ := exists_script_take leads start
      obtain ⟨more, after⟩ := ih (start.fill property.1 filling)
      refine ⟨first ++ more, ?_⟩
      rw [List.foldlM_cons, List.reverse_cons, List.append_assoc]
      exact taken.bind after
  | skip optional _ ih =>
      obtain ⟨first, skipped⟩ := exists_script_skip optional start
      obtain ⟨more, after⟩ := ih start
      refine ⟨first ++ more, ?_⟩
      rw [List.foldlM_cons]
      exact skipped.bind after

section Nodes

variable {levels : Nat} {schema : Value}

/-- A script for a node leads to what is assembled under it. -/
theorem realised_of_node {assembly : Assembly}
    (node : ∃ script, Leads (assembleNode .scripted (assembleWithRng .scripted levels) schema)
      script assembly) : Realised ⟨levels + 1, schema⟩ (assembly.under schema) := by
  obtain ⟨script, leads⟩ := node
  refine ⟨script ++ [], ?_⟩
  rw [assembleWithRng]
  exact leads.bind (leads_pure _)

theorem realised_plain (unvaried : variantsOf schema = none) (unjoined : partsOf schema = none)
    {picks : List (String × Assembly)}
    (picked : Picks levels (requiredSet schema) (declaredProperties schema) picks) :
    Realised ⟨levels + 1, schema⟩ (.mk [schema] picks.reverse) := by
  have node : ∃ script, Leads (assembleNode .scripted (assembleWithRng .scripted levels) schema)
      script (.mk [] (picks.reverse ++ [])) := by
    rw [assembleNode, unvaried, unjoined]
    exact exists_script_properties picked .empty
  rw [List.append_nil] at node
  exact realised_of_node node

theorem realised_variant {variants : List Value} (listed : variantsOf schema = some variants)
    {variant : Value} (member : variant ∈ variants) {assembly : Assembly}
    (realised : Realised ⟨levels, variant⟩ assembly) :
    Realised ⟨levels + 1, schema⟩ (assembly.under schema) := by
  obtain ⟨script, leads⟩ := realised
  obtain ⟨index, below, same⟩ := List.mem_iff_getElem.mp member
  have chosen : variants.getD index .null = variant := by
    rw [List.getD_eq_getElem?_getD, List.getElem?_eq_getElem below, same, Option.getD_some]
  refine realised_of_node ⟨[(index : Int)] ++ script, ?_⟩
  rw [assembleNode, listed]
  refine (leads_randomIndex below).bind ?_
  rwa [chosen]

end Nodes

/-- What assemblies amount to, each on top of the ones before. -/
def Assembly.joined (assemblies : List Assembly) : Assembly :=
  .mk (assemblies.map Assembly.nodes).flatten (assemblies.map Assembly.fills).reverse.flatten

namespace Assembly

theorem merge_assoc (first second third : Assembly) :
    (first.merge second).merge third = first.merge (second.merge third) := by
  simp only [merge, nodes, fills, List.append_assoc]

theorem merge_under (assembly later : Assembly) (schema : Value) :
    (assembly.under schema).merge later = (assembly.merge later).under schema := rfl

theorem joined_append (first others : List Assembly) :
    joined (first ++ others) = (joined first).merge (joined others) := by
  simp [joined, merge, nodes, fills]

theorem joined_singleton (assembly : Assembly) : joined [assembly] = assembly := by
  cases assembly
  simp [joined, nodes, fills]

theorem joined_cons (first : Assembly) (others : List Assembly) :
    joined (first :: others) = first.merge (joined others) := by
  rw [← List.singleton_append, joined_append, joined_singleton]

theorem merge_empty (assembly : Assembly) : assembly.merge empty = assembly := by
  cases assembly
  simp [merge, empty, nodes, fills]

theorem empty_merge (assembly : Assembly) : empty.merge assembly = assembly := by
  cases assembly
  simp [merge, empty, nodes, fills]

end Assembly

theorem exists_script_parts {levels : Nat} {parts : List Value} {assemblies : List Assembly}
    (realised : assemblies.Forall₂ (fun assembly part => Realised ⟨levels, part⟩ assembly) parts)
    (start : Assembly) :
    ∃ script, Leads (parts.foldlM (assemblePart (assembleWithRng .scripted levels)) start) script
      (start.merge (.joined assemblies)) := by
  induction realised generalizing start with
  | nil =>
      change ∃ script, Leads (pure start) script (start.merge .empty)
      rw [Assembly.merge_empty]
      exact ⟨[], leads_pure start⟩
  | @cons assembly part _ _ first _ ih =>
      obtain ⟨script, leads⟩ := first
      obtain ⟨more, after⟩ := ih (start.merge assembly)
      have merged : Leads (assemblePart (assembleWithRng .scripted levels) start part)
          (script ++ []) (start.merge assembly) := leads.bind (leads_pure _)
      refine ⟨script ++ [] ++ more, ?_⟩
      rw [List.foldlM_cons, Assembly.joined_cons, ← Assembly.merge_assoc]
      exact merged.bind after

theorem realised_parts {levels : Nat} {schema : Value} (unvaried : variantsOf schema = none)
    {parts : List Value} (listed : partsOf schema = some parts) {assemblies : List Assembly}
    (realised : assemblies.Forall₂ (fun assembly part => Realised ⟨levels, part⟩ assembly) parts) :
    Realised ⟨levels + 1, schema⟩ ((Assembly.joined assemblies).under schema) := by
  refine realised_of_node ?_
  rw [assembleNode, unvaried, listed, ← Assembly.empty_merge (.joined assemblies)]
  exact exists_script_parts realised .empty

/-- However the plain nodes of a layout are filled, some draws fill them so. -/
theorem exists_realised {pending leaves : List Pending} {nodes : List Value}
    (layout : Layout pending nodes leaves) {choices : List (List (String × Assembly))}
    (picked : choices.Forall₂ (fun picks leaf => Picks leaf.levels (requiredSet leaf.schema)
      (declaredProperties leaf.schema) picks) leaves) :
    ∃ assemblies, assemblies.Forall₂ (fun assembly first => Realised first assembly) pending ∧
      Assembly.joined assemblies = .mk nodes choices.flatten.reverse := by
  induction layout generalizing choices with
  | done =>
      cases picked
      exact ⟨[], .nil, rfl⟩
  | plain unvaried unjoined _ _ ih =>
      cases picked with
      | @cons picks _ _ _ first others =>
          obtain ⟨assemblies, realised, joined⟩ := ih others
          refine ⟨_, .cons (realised_plain unvaried unjoined first) realised, ?_⟩
          rw [Assembly.joined_cons, joined]
          simp [Assembly.merge, Assembly.nodes, Assembly.fills]
  | variant listed _ member _ ih =>
      obtain ⟨assemblies, realised, joined⟩ := ih picked
      cases realised with
      | @cons assembly _ _ _ first others =>
          refine ⟨_, .cons (realised_variant listed member first) others, ?_⟩
          rw [Assembly.joined_cons, Assembly.merge_under, ← Assembly.joined_cons, joined]
          rfl
  | @parts levels schema list _ rest _ unvaried listed _ ih =>
      obtain ⟨assemblies, realised, joined⟩ := ih picked
      have first := List.forall₂_take_append _ (list.map (Pending.mk levels)) rest realised
      have others := List.forall₂_drop_append _ (list.map (Pending.mk levels)) rest realised
      rw [List.forall₂_map_right_iff] at first
      refine ⟨_, .cons (realised_parts unvaried listed first) others, ?_⟩
      rw [Assembly.joined_cons, Assembly.merge_under, ← Assembly.joined_append,
        List.take_append_drop, joined]
      rfl

section Choices

variable {levels : Nat} (required : List String) {properties : List (String × Value)}

/-- Fillings of exactly the required properties. -/
theorem exists_picks_required (live : ∀ property ∈ properties, property.1 ∈ required →
      ∃ filling, Realised ⟨levels, property.2⟩ filling) :
    ∃ picks, Picks levels required properties picks ∧ ∀ name, name ∈ picks.map Prod.fst ↔
      name ∈ required ∧ name ∈ properties.map Prod.fst := by
  induction properties with
  | nil => exact ⟨[], .done, by simp⟩
  | cons property rest ih =>
      obtain ⟨first, others⟩ := List.forall_mem_cons.mp live
      obtain ⟨picks, picked, names⟩ := ih others
      by_cases needed : property.1 ∈ required
      · obtain ⟨filling, realised⟩ := first needed
        refine ⟨(property.1, filling) :: picks, .take realised picked, fun name => ?_⟩
        rw [List.map_cons, List.map_cons, List.mem_cons, List.mem_cons, names]
        constructor
        · rintro (rfl | ⟨wanted, later⟩)
          · exact ⟨needed, .inl rfl⟩
          · exact ⟨wanted, .inr later⟩
        · rintro ⟨wanted, rfl | later⟩
          · exact .inl rfl
          · exact .inr ⟨wanted, later⟩
      · refine ⟨picks, .skip needed picked, fun name => ?_⟩
        rw [List.map_cons, List.mem_cons, names]
        constructor
        · exact fun found => ⟨found.1, .inr found.2⟩
        · rintro ⟨wanted, rfl | later⟩
          · exact absurd wanted needed
          · exact ⟨wanted, later⟩

/-- Fillings with a wanted one among them. -/
theorem exists_picks_with (live : ∀ property ∈ properties, property.1 ∈ required →
      ∃ filling, Realised ⟨levels, property.2⟩ filling)
    {property : String × Value} (listed : property ∈ properties) {filling : Assembly}
    (realised : Realised ⟨levels, property.2⟩ filling) :
    ∃ picks, Picks levels required properties picks ∧ (property.1, filling) ∈ picks := by
  induction properties with
  | nil => cases listed
  | cons first rest ih =>
      obtain ⟨able, others⟩ := List.forall_mem_cons.mp live
      rcases List.mem_cons.mp listed with rfl | later
      · obtain ⟨picks, picked, -⟩ := exists_picks_required required others
        exact ⟨_, .take realised picked, List.mem_cons_self⟩
      · obtain ⟨picks, picked, member⟩ := ih others later
        by_cases needed : first.1 ∈ required
        · obtain ⟨other, drawn⟩ := able needed
          exact ⟨_, .take drawn picked, List.mem_cons_of_mem _ member⟩
        · exact ⟨picks, .skip needed picked, member⟩

variable {required}

theorem Picks.names_sublist {picks : List (String × Assembly)}
    (picked : Picks levels required properties picks) :
    (picks.map Prod.fst).Sublist (properties.map Prod.fst) := by
  induction picked with
  | done => exact List.Sublist.refl _
  | take _ _ ih => exact ih.cons_cons _
  | skip _ _ ih => exact ih.cons _

end Choices

/-- What can be generated is generated by some draws. -/
theorem exists_realised_of_generable {pending : Pending} (generable : Generable pending) :
    ∃ assembly, Realised pending assembly := by
  induction generable with
  | plain unvaried unjoined _ each =>
      obtain ⟨picks, picked, -⟩ := exists_picks_required _ each
      exact ⟨_, realised_plain unvaried unjoined picked⟩
  | variant listed member _ ih =>
      obtain ⟨assembly, realised⟩ := ih
      exact ⟨_, realised_variant listed member realised⟩
  | parts unvaried listed _ each =>
      obtain ⟨assemblies, realised⟩ := exists_forall₂ each
      exact ⟨_, realised_parts unvaried listed realised⟩

theorem exists_lookup_iff {fills : List (String × Assembly)} {name : String} :
    (∃ filling, fills.lookup name = some filling) ↔ name ∈ fills.map Prod.fst := by
  rw [← Option.isSome_iff_exists, List.lookup_isSome_iff, List.mem_map]
  constructor
  · rintro ⟨entry, member, same⟩
    exact ⟨entry, member, (beq_iff_eq.mp same).symm⟩
  · rintro ⟨entry, member, rfl⟩
    exact ⟨entry, member, beq_self_eq_true _⟩

/-- Plain nodes can be filled with what they require. -/
theorem exists_choices_required {leaves : List Pending}
    (live : ∀ leaf ∈ leaves, ∀ property ∈ declaredProperties leaf.schema,
      property.1 ∈ requiredSet leaf.schema → Generable ⟨leaf.levels, property.2⟩) :
    ∃ choices : List (List (String × Assembly)), choices.Forall₂
        (fun picks leaf => Picks leaf.levels (requiredSet leaf.schema)
          (declaredProperties leaf.schema) picks) leaves ∧
      ∀ name, name ∈ choices.flatten.map Prod.fst ↔ Sure leaves name := by
  induction leaves with
  | nil => exact ⟨[], .nil, fun name => iff_of_false List.not_mem_nil (by rintro ⟨_, ⟨⟩, _⟩)⟩
  | cons leaf rest ih =>
      obtain ⟨here, later⟩ := List.forall_mem_cons.mp live
      obtain ⟨choices, picked, sure⟩ := ih later
      obtain ⟨picks, first, names⟩ := exists_picks_required (requiredSet leaf.schema)
        fun property listed needed => exists_realised_of_generable (here property listed needed)
      refine ⟨picks :: choices, .cons first picked, fun name => ?_⟩
      rw [List.flatten_cons, List.map_append, List.mem_append, names, sure]
      constructor
      · rintro (here | ⟨other, member, there⟩)
        · exact ⟨leaf, List.mem_cons_self, here⟩
        · exact ⟨other, List.mem_cons_of_mem _ member, there⟩
      · rintro ⟨other, member, named⟩
        rcases List.mem_cons.mp member with rfl | after
        · exact .inl named
        · exact .inr ⟨other, after, named⟩

section Layouts

variable {pending : Pending} {nodes : List Value} {leaves : List Pending}

theorem realised_of_layout (layout : Layout [pending] nodes leaves)
    {choices : List (List (String × Assembly))}
    (picked : choices.Forall₂ (fun picks leaf => Picks leaf.levels (requiredSet leaf.schema)
      (declaredProperties leaf.schema) picks) leaves) :
    Realised pending (.mk nodes choices.flatten.reverse) := by
  obtain ⟨assemblies, realised, joined⟩ := exists_realised layout picked
  cases realised with
  | cons first others =>
      cases others
      rw [Assembly.joined_singleton] at joined
      exact joined ▸ first

/-- A layout is assembled with the names that are sure, and no others. -/
theorem exists_least (layout : Layout [pending] nodes leaves) :
    ∃ assembly, Realised pending assembly ∧ assembly.nodes = nodes ∧ ∀ name,
      (∃ filling, assembly.fills.lookup name = some filling) ↔ Sure leaves name := by
  obtain ⟨choices, picked, sure⟩ := exists_choices_required layout.live_of_leaf
  refine ⟨_, realised_of_layout layout picked, rfl, fun name => ?_⟩
  rw [exists_lookup_iff, Assembly.fills, List.map_reverse, List.mem_reverse, sure]

/-- A layout is assembled with a given filling from a schema that may supply it. -/
theorem exists_supplied (composition : Composition pending.schema)
    (layout : Layout [pending] nodes leaves) {name : String} {supplier : Pending}
    (supplies : Supplies leaves name supplier) {filling : Assembly}
    (realised : Realised supplier filling) :
    ∃ assembly, Realised pending assembly ∧ assembly.nodes = nodes ∧
      assembly.fills.lookup name = some filling := by
  obtain ⟨before, leaf, after, rfl, same, declared, -, unsure⟩ := supplies
  obtain ⟨first, later⟩ := List.forall_mem_append.mp layout.live_of_leaf
  obtain ⟨here, last⟩ := List.forall_mem_cons.mp later
  obtain ⟨front, pickedFront, -⟩ := exists_choices_required first
  obtain ⟨back, pickedBack, sure⟩ := exists_choices_required last
  have drawn : Realised ⟨leaf.levels, supplier.schema⟩ filling := same ▸ realised
  obtain ⟨picks, picked, member⟩ := exists_picks_with (requiredSet leaf.schema)
    (fun property listed needed => exists_realised_of_generable (here property listed needed))
    declared drawn
  have filled := realised_of_layout layout (List.rel_append pickedFront (.cons picked pickedBack))
  refine ⟨_, filled, rfl, ?_⟩
  have missing : back.flatten.reverse.lookup name = none := by
    rw [← Option.not_isSome_iff_eq_none, Option.isSome_iff_exists, exists_lookup_iff,
      List.map_reverse, List.mem_reverse, sure]
    exact unsure
  have distinct : (picks.reverse.map Prod.fst).Nodup := by
    rw [List.map_reverse, List.nodup_reverse]
    have branch := layout.branch_of_leaf (List.mem_append_right before List.mem_cons_self)
    exact (composition.of_branch branch).distinct.sublist picked.names_sublist
  have found := SortedEntries.lookup_of_mem distinct (List.mem_reverse.mpr member)
  rw [Assembly.fills, List.flatten_append, List.flatten_cons, List.reverse_append,
    List.reverse_append, List.lookup_append, List.lookup_append, missing, found]
  rfl

end Layouts

end SpecMock.Core
