import SpecMock.Core.LawfulDraws

/-!
# Discriminators

The variant is drawn from the positions between the first and the last one
that the mapping names, and the discriminator value is then looked up by the
variant's own name.  A variant in between that the mapping does not name gets
the first key.
-/

namespace SpecMock.Core.Faker

open SpecMock.Library Drawing

/-- The target of a mapping entry names a variant. -/
def Targets (entry : String × String) (variant : Value) : Prop :=
  variantSchemaName variant = some (targetName entry.2) ∨
    title variant = some (targetName entry.2)

/-- The name that the discriminator value is looked up by. -/
def ownName (variant : Value) : Option String := (variantSchemaName variant).or (title variant)

section Discriminators

variable (schema : Value) (discriminator : Discriminator) (variants : List Value)

/-- A key of the mapping whose target names the variant at a position. -/
def KeyAt (index : Nat) (key : String) : Prop :=
  ∃ entry ∈ discriminator.mapping.entries, entry.1 = key ∧
    Targets entry (variants.getD index .null)

/-- Whatever is drawn, the discriminator agrees with the payload. -/
structure DiscriminatorAgrees : Prop where
  /-- The variant that is picked is the target of a mapping entry. -/
  picked : ∀ (ρ φ : Type) (random : Randomness ρ φ), random.Lawful → ∀ stream index next,
    pickDiscriminatorVariantIndex random variants discriminator.mapping stream =
      .ok (index, next) → ∃ key, KeyAt discriminator variants index key
  /-- The value for it is the key of such an entry. -/
  valued : ∀ (ρ φ : Type) (random : Randomness ρ φ), random.Lawful → ∀ stream index next,
    pickDiscriminatorVariantIndex random variants discriminator.mapping stream =
      .ok (index, next) →
        KeyAt discriminator variants index
          (discriminatorValueForIndex discriminator variants index)
  /-- An object that is generated carries the key of an entry that targets its variant. -/
  written : ∀ (ρ φ : Type) (random : Randomness ρ φ), random.Lawful →
    ∀ remaining stream value next, declaredValue schema = none →
      generateWithRng random (remaining + 1) schema stream = .ok (value, next) →
        ∃ index middle payload,
          pickDiscriminatorVariantIndex random variants discriminator.mapping stream =
            .ok (index, middle) ∧
          generateWithRng random remaining (variants.getD index .null) middle =
            .ok (payload, next) ∧
          ∀ members, payload = .object members →
            ∃ key, KeyAt discriminator variants index key ∧
              value.get discriminator.propertyName = some (.string key)

/-- The variant at a position is a target by its own name, or the first entry targets it. -/
def ValueFits (index : Nat) : Prop :=
  (∃ entry ∈ discriminator.mapping.entries,
    ownName (variants.getD index .null) = some (targetName entry.2)) ∨
  ∃ entry, discriminator.mapping.entries.head? = some entry ∧
    Targets entry (variants.getD index .null)

/-- Between two positions that the mapping names, the value fits at every position. -/
def NamedWithoutGaps : Prop :=
  ∀ low ∈ mappedVariants variants discriminator.mapping,
    ∀ high ∈ mappedVariants variants discriminator.mapping,
      ∀ index, low ≤ index → index ≤ high → ValueFits discriminator variants index

end Discriminators

variable {schema : Value} {discriminator : Discriminator} {variants : List Value}

theorem mem_mappedVariants {mapping : OrderedMap String String} {index : Nat} :
    index ∈ mappedVariants variants mapping ↔ ∃ entry ∈ mapping.entries,
      variants.findIdx? (fun variant => variantSchemaName variant == some (targetName entry.2) ||
        title variant == some (targetName entry.2)) = some index := by
  unfold mappedVariants
  change index ∈ (SortedEntries.collect _).map Prod.fst ↔ _
  rw [SortedEntries.mem_keys_collect]
  simp only [List.mem_map, List.mem_filterMap, Option.map_eq_some_iff]
  constructor
  · rintro ⟨_, ⟨entry, member, position, found, rfl⟩, rfl⟩
    exact ⟨entry, member, found⟩
  · rintro ⟨entry, member, found⟩
    exact ⟨_, ⟨entry, member, index, found, rfl⟩, rfl⟩

theorem lt_of_mem_mappedVariants {mapping : OrderedMap String String} {index : Nat}
    (member : index ∈ mappedVariants variants mapping) : index < variants.length := by
  obtain ⟨entry, -, found⟩ := mem_mappedVariants.mp member
  exact (List.findIdx?_eq_some_iff_getElem.mp found).1

/-- A target that names a variant has a first variant that it names. -/
theorem mappedVariants_ne_nil {mapping : OrderedMap String String} {entry : String × String}
    {variant : Value} (member : entry ∈ mapping.entries) (listed : variant ∈ variants)
    (targets : Targets entry variant) : mappedVariants variants mapping ≠ [] := by
  have found : (variants.findIdx? fun variant =>
      variantSchemaName variant == some (targetName entry.2) ||
        title variant == some (targetName entry.2)).isSome = true := by
    rw [List.findIdx?_isSome, List.any_eq_true]
    exact ⟨variant, listed, by simpa [Targets] using targets⟩
  obtain ⟨index, found⟩ := Option.isSome_iff_exists.mp found
  exact List.ne_nil_of_mem (mem_mappedVariants.mpr ⟨entry, member, found⟩)

/-- In increasing numbers the last one is the greatest. -/
theorem le_getLastD {numbers : List Nat} (increasing : numbers.Pairwise (· < ·)) {number : Nat}
    (member : number ∈ numbers) (default : Nat) : number ≤ numbers.getLastD default := by
  induction numbers generalizing number default with
  | nil => cases member
  | cons first rest ih =>
      obtain ⟨above, increasingRest⟩ := List.pairwise_cons.mp increasing
      rw [List.getLastD_cons]
      rcases List.mem_cons.mp member with rfl | later
      · cases rest with
        | nil => exact le_refl _
        | cons second others =>
            have next := ih increasingRest List.mem_cons_self number
            exact (above second List.mem_cons_self).le.trans next
      · exact ih increasingRest later first

theorem getLastD_mem (first : Nat) (rest : List Nat) : rest.getLastD first ∈ first :: rest := by
  induction rest generalizing first with
  | nil => exact List.mem_cons_self
  | cons second others ih =>
      rw [List.getLastD_cons]
      exact List.mem_cons_of_mem _ (ih second)

/-- The range that the position is drawn from, if the mapping names any variant. -/
theorem pick_eq {ρ φ : Type} (random : Randomness ρ φ) {mapping : OrderedMap String String}
    (mapped : mappedVariants variants mapping ≠ []) :
    ∃ low ∈ mappedVariants variants mapping, ∃ high ∈ mappedVariants variants mapping,
      (∀ index ∈ mappedVariants variants mapping, low ≤ index ∧ index ≤ high) ∧
        (pickDiscriminatorVariantIndex random variants mapping = pure low ∧ low = high ∨
          pickDiscriminatorVariantIndex random variants mapping = (do
            let index ← randomRange random low high
            return index.toNat)) := by
  have increasing : (mappedVariants variants mapping).Pairwise (· < ·) := OrderedMap.keys_sorted _
  unfold pickDiscriminatorVariantIndex
  cases positions : mappedVariants variants mapping with
  | nil => exact absurd positions mapped
  | cons first rest =>
      rw [positions] at increasing
      obtain ⟨above, -⟩ := List.pairwise_cons.mp increasing
      have least : ∀ index ∈ first :: rest, first ≤ index := by
        rintro index (_ | ⟨_, later⟩)
        · exact le_refl _
        · exact (above index later).le
      cases rest with
      | nil =>
          refine ⟨first, List.mem_cons_self, first, List.mem_cons_self, ?_, .inl ⟨rfl, rfl⟩⟩
          rintro index (_ | ⟨_, later⟩)
          · exact ⟨le_refl _, le_refl _⟩
          · cases later
      | cons second others =>
          refine ⟨first, List.mem_cons_self, (second :: others).getLastD first,
            getLastD_mem first _, fun index member => ⟨least index member, ?_⟩, .inr rfl⟩
          have greatest := le_getLastD increasing member first
          rwa [List.getLastD_cons] at greatest

/-- The position lies between two that the mapping names. -/
theorem ensures_pick {ρ φ : Type} {random : Randomness ρ φ} (lawful : random.Lawful)
    {mapping : OrderedMap String String} (mapped : mappedVariants variants mapping ≠ [])
    (fails : Prop) :
    Ensures (pickDiscriminatorVariantIndex random variants mapping) (fun index =>
      ∃ low ∈ mappedVariants variants mapping, ∃ high ∈ mappedVariants variants mapping,
        low ≤ index ∧ index ≤ high) fails := by
  obtain ⟨low, least, high, greatest, bounds, ⟨only, same⟩ | drawn⟩ := pick_eq random mapped
  · rw [only]
    exact ensures_pure ⟨low, least, high, greatest, le_refl _, same.le⟩
  · rw [drawn]
    have ordered : (low : Int) ≤ high := Int.ofNat_le.mpr (bounds high greatest).1
    refine (ensures_randomRange lawful ordered).bind fun index inside => ?_
    exact ensures_pure ⟨low, least, high, greatest, by omega, by omega⟩

/-- Every such position may be drawn. -/
theorem pick_fixed {mapping : OrderedMap String String} {low high index : Nat}
    (least : low ∈ mappedVariants variants mapping)
    (greatest : high ∈ mappedVariants variants mapping) (above : low ≤ index)
    (below : index ≤ high) :
    pickDiscriminatorVariantIndex (Randomness.fixed index) variants mapping () =
      .ok (index, ()) := by
  obtain ⟨first, -, last, -, bounds, ⟨only, same⟩ | drawn⟩ :=
    pick_eq (Randomness.fixed index) (List.ne_nil_of_mem least)
  · have from_below := (bounds low least).1
    have from_above := (bounds high greatest).2
    have found : first = index := by omega
    rw [only, found]
    rfl
  · have from_below := (bounds low least).1
    have from_above := (bounds high greatest).2
    have inside : (first : Int) ≤ index ∧ (index : Int) ≤ last := by omega
    rw [drawn, bind_run]
    change (Except.ok (Int.toNat (if _ then _ else _), ()) : Except String _) = _
    rw [if_pos inside, Int.toNat_natCast]

theorem targets_of_ownName {variant : Value} {entry : String × String}
    (own : ownName variant = some (targetName entry.2)) : Targets entry variant := by
  rcases Option.or_eq_some_iff.mp own with named | ⟨-, titled⟩
  · exact .inl named
  · exact .inr titled

theorem not_targets_of_nameless {variant : Value} (nameless : ownName variant = none)
    (entry : String × String) : ¬ Targets entry variant := by
  obtain ⟨unnamed, untitled⟩ := Option.or_eq_none_iff.mp nameless
  rintro (named | titled)
  · rw [unnamed] at named
    cases named
  · rw [untitled] at titled
    cases titled

/-- The value for a position is a key that names the variant exactly if it fits. -/
theorem keyAt_value_iff {index : Nat} (inside : index < variants.length)
    (mapped : discriminator.mapping.entries ≠ []) :
    KeyAt discriminator variants index
        (discriminatorValueForIndex discriminator variants index) ↔
      ValueFits discriminator variants index := by
  obtain ⟨first, rest, entries⟩ := List.exists_cons_of_ne_nil mapped
  have chosen : variants[index]? = some (variants.getD index .null) := by
    rw [List.getD_eq_getElem?_getD, List.getElem?_eq_getElem inside, Option.getD_some]
  have head : discriminator.mapping.keys.head? = some first.1 := by
    rw [OrderedMap.keys, entries, List.map_cons, List.head?_cons]
  have fallback : KeyAt discriminator variants index first.1 ↔
      ∃ entry, discriminator.mapping.entries.head? = some entry ∧
        Targets entry (variants.getD index .null) := by
    rw [entries, List.head?_cons]
    constructor
    · rintro ⟨entry, member, key, targets⟩
      have found := OrderedMap.get_of_mem (show (entry.1, entry.2) ∈ _ from member)
      have listed : (first.1, first.2) ∈ discriminator.mapping.entries := by
        rw [entries]
        exact List.mem_cons_self
      have foundFirst := OrderedMap.get_of_mem listed
      rw [key, foundFirst, Option.some.injEq] at found
      exact ⟨first, rfl, Prod.ext key found.symm ▸ targets⟩
    · rintro ⟨_, ⟨rfl⟩, targets⟩
      exact ⟨first, entries ▸ List.mem_cons_self, rfl, targets⟩
  unfold discriminatorValueForIndex ValueFits
  rw [chosen, head, Option.getD_some]
  dsimp only
  rw [← ownName]
  cases own : ownName (variants.getD index .null) with
  | none =>
      refine fallback.trans ⟨.inr, ?_⟩
      rintro (⟨entry, -, named⟩ | first)
      · cases named
      · exact first
  | some name =>
      dsimp only
      cases found : discriminator.mapping.entries.find? fun entry => targetName entry.2 == name with
      | some entry =>
          have member := List.mem_of_find?_eq_some found
          have named : targetName entry.2 = name := by
            simpa using List.find?_some found
          have same : ownName (variants.getD index .null) = some (targetName entry.2) := by
            rw [own, named]
          have fits : some name = some (targetName entry.2) := by
            rw [named]
          exact iff_of_true ⟨entry, member, rfl, targets_of_ownName same⟩
            (.inl ⟨entry, member, fits⟩)
      | none =>
          refine fallback.trans ⟨.inr, ?_⟩
          rintro (⟨entry, member, named⟩ | first)
          · have missed := List.find?_eq_none.mp found entry member
            rw [Option.some.injEq] at named
            exact absurd (beq_iff_eq.mpr named.symm) missed
          · exact first

/-- Generation with a discriminator picks a variant and writes its value into an object. -/
theorem generateWithRng_discriminated {ρ φ : Type} {random : Randomness ρ φ}
    (undeclared : declaredValue schema = none) (listed : variantsOf schema = some variants)
    (declared : extractDiscriminator schema = some discriminator) {remaining : Nat}
    {stream next : ρ} {value : Value}
    (run : generateWithRng random (remaining + 1) schema stream = .ok (value, next)) :
    ∃ index middle payload,
      pickDiscriminatorVariantIndex random variants discriminator.mapping stream =
        .ok (index, middle) ∧
      generateWithRng random remaining (variants.getD index .null) middle = .ok (payload, next) ∧
      ∀ members, payload = .object members → value.get discriminator.propertyName =
        some (.string (discriminatorValueForIndex discriminator variants index)) := by
  rw [generateWithRng_succ undeclared, generateUndeclared, listed] at run
  simp only [generateVariant, declared] at run
  obtain ⟨index, middle, picked, rest⟩ := Drawing.bind_eq_ok.mp run
  obtain ⟨payload, last, generated, written⟩ := Drawing.bind_eq_ok.mp rest
  cases payload with
  | object members =>
      cases written
      refine ⟨index, middle, _, picked, generated, ?_⟩
      rintro _ ⟨rfl⟩
      exact SortedEntries.lookup_insert_self _ _ _
  | null | bool | number | string | array =>
      cases written
      exact ⟨index, middle, _, picked, generated, by simp⟩

/--
The discriminator agrees with every payload if and only if between the
variants that the mapping names, every variant is a target by its own name or
by the first entry.
-/
theorem discriminator_agrees_iff (listed : variantsOf schema = some variants)
    (declared : extractDiscriminator schema = some discriminator)
    (targeted : ∃ entry ∈ discriminator.mapping.entries, ∃ variant ∈ variants,
      Targets entry variant) :
    DiscriminatorAgrees schema discriminator variants ↔
      NamedWithoutGaps discriminator variants := by
  obtain ⟨entry, member, variant, inside, targets⟩ := targeted
  have mapped := mappedVariants_ne_nil member inside targets
  have nonempty := List.ne_nil_of_mem member
  constructor
  · intro agrees low least high greatest index above below
    have drawn := pick_fixed least greatest above below
    have key := agrees.valued _ _ _ (Randomness.fixed_lawful index) _ _ _ drawn
    have bounded := below.trans_lt (lt_of_mem_mappedVariants greatest)
    exact (keyAt_value_iff bounded nonempty).mp key
  · intro gapless
    have valued : ∀ (ρ φ : Type) (random : Randomness ρ φ), random.Lawful →
        ∀ stream index next,
          pickDiscriminatorVariantIndex random variants discriminator.mapping stream =
            .ok (index, next) → KeyAt discriminator variants index
              (discriminatorValueForIndex discriminator variants index) := by
      intro ρ φ random lawful stream index next picked
      have drawn := ensures_pick lawful mapped True stream
      rw [picked] at drawn
      obtain ⟨low, least, high, greatest, above, below⟩ := drawn
      have bounded := below.trans_lt (lt_of_mem_mappedVariants greatest)
      have fits := gapless low least high greatest index above below
      exact (keyAt_value_iff bounded nonempty).mpr fits
    constructor
    · intro ρ φ random lawful stream index next picked
      exact ⟨_, valued ρ φ random lawful stream index next picked⟩
    · exact valued
    · intro ρ φ random lawful remaining stream value next undeclared run
      obtain ⟨index, middle, payload, picked, generated, written⟩ :=
        generateWithRng_discriminated undeclared listed declared run
      refine ⟨index, middle, payload, picked, generated, fun members object => ?_⟩
      exact ⟨_, valued ρ φ random lawful stream index middle picked, written members object⟩

/-- Pets of some kinds, with a mapping for cats and dogs. -/
def petSchema (kinds : List (List (String × Value))) : Value :=
  .object [("discriminator", .object [
      ("mapping", .object [("cat", .string "#/Cat"), ("dog", .string "#/Dog")]),
      ("propertyName", .string "kind")]),
    ("oneOf", .array (kinds.map .object))]

/-- Both kinds of pets are named by the mapping. -/
theorem two_pets_agree :
    ∃ discriminator, extractDiscriminator (petSchema [[("title", .string "Dog")],
        [("title", .string "Cat")]]) = some discriminator ∧
      DiscriminatorAgrees (petSchema [[("title", .string "Dog")], [("title", .string "Cat")]])
        discriminator [.object [("title", .string "Dog")], .object [("title", .string "Cat")]] := by
  refine ⟨_, rfl, (discriminator_agrees_iff rfl rfl ?_).mpr ?_⟩
  · exact ⟨("cat", "#/Cat"), by decide, .object [("title", .string "Cat")], by decide, .inr rfl⟩
  · intro low least high greatest index above below
    have bounded := below.trans_lt (lt_of_mem_mappedVariants greatest)
    match index, bounded with
    | 0, _ => exact .inl ⟨("dog", "#/Dog"), by decide, rfl⟩
    | 1, _ => exact .inl ⟨("cat", "#/Cat"), by decide, rfl⟩

/-- A bird between a cat and a dog is passed off as a cat. -/
theorem bird_called_cat :
    ∃ discriminator variants, extractDiscriminator (petSchema [[("title", .string "Cat")], [],
        [("title", .string "Dog")]]) = some discriminator ∧
      variantsOf (petSchema [[("title", .string "Cat")], [], [("title", .string "Dog")]]) =
        some variants ∧
      ¬ DiscriminatorAgrees (petSchema [[("title", .string "Cat")], [],
        [("title", .string "Dog")]]) discriminator variants := by
  refine ⟨_, _, rfl, rfl, fun agrees => ?_⟩
  obtain ⟨key, entry, -, -, targets⟩ :=
    agrees.picked _ _ _ (Randomness.fixed_lawful 1) () 1 () rfl
  exact not_targets_of_nameless rfl entry targets

end SpecMock.Core.Faker
