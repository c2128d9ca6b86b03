import SpecMock.Core.RefResolver

/-!
# The cache of external documents

With files that do not change, a resolver answers as if it loaded every file
whenever it is named: what the cache holds is what a file holds, whatever was
evicted in between.  The cache knows a file by the text of its path, though,
and in that text the bytes of a path that are no Unicode look all the same.  An
access to the cache is faithful unless it finds the document of another file.
-/

namespace SpecMock.Core

open SpecMock.Library

variable {Path σ τ : Type} (files : Files Path)

/-- Loading a file whenever it is named, without a cache. -/
def fixedDocument (canonical : Path) : Attempt String Unit Value :=
  Attempt.ofExcept (loadFile files canonical)

/-- Canonical paths of the same text hold the same document, if one of them holds one. -/
def Files.KeysFaithful : Prop :=
  ∀ canonical other document, files.toStringLossy canonical = files.toStringLossy other →
    loadFile files canonical = .ok document → loadFile files other = .ok document

namespace ExternalDocs

/-- What is cached under the key of a path, if anything, is what the file of the path holds. -/
def Faithful (docs : ExternalDocs) (canonical : Path) : Prop :=
  ∀ document, docs.cache.lookup (files.toStringLossy canonical) = some document →
    loadFile files canonical = .ok document

/-- Every cached document is what the files of its key hold. -/
def Coherent (docs : ExternalDocs) : Prop := ∀ canonical, docs.Faithful files canonical

/-- The queue lists exactly the keys of the cache, each once, and is short enough. -/
structure WellKept (limit : Nat) (docs : ExternalDocs) : Prop where
  distinct : docs.cacheOrder.Nodup
  keys : ∀ key, key ∈ docs.cacheOrder ↔ key ∈ docs.cache
  bounded : docs.cacheOrder.length ≤ limit

end ExternalDocs

/-! ## Walks side by side -/

section Walk

variable {files} {allowedRoots : List Path} {maxDepth : Nat} {holds : σ → Prop}
  {related : σ → τ → Prop} {fetch : Path → Attempt String σ Value}
  {load : Path → Attempt String τ Value}

theorem simulates_resolveRef
    (alike : ∀ canonical, Attempt.SimulatesWhile holds related (fetch canonical) (load canonical))
    {walk : Value → Path → Value → Attempt String σ Value}
    {pass : Value → Path → Value → Attempt String τ Value}
    (inside : ∀ rootDoc base value, Attempt.SimulatesWhile holds related
      (walk rootDoc base value) (pass rootDoc base value))
    (reference : String) (rootDoc : Value) (base : Path) :
    Attempt.SimulatesWhile holds related
      (resolveRef files allowedRoots fetch walk reference rootDoc base)
      (resolveRef files allowedRoots load pass reference rootDoc base) := by
  unfold resolveRef
  split
  · exact Attempt.simulates_fail _
  · dsimp only
    split
    · exact Attempt.simulates_demand _ _
    · split
      · exact Attempt.simulates_fail _
      · split
        · refine (alike _).bind fun document => ?_
          exact (Attempt.simulates_demand _ _).bind fun node => inside _ _ _
        · exact Attempt.simulates_fail _

/-- Walks that fetch documents alike resolve alike. -/
theorem simulates_resolveValue
    (alike : ∀ canonical, Attempt.SimulatesWhile holds related (fetch canonical) (load canonical))
    (budget : Nat) (rootDoc : Value) (base : Path) (value : Value) :
    Attempt.SimulatesWhile holds related
      (resolveValue files allowedRoots maxDepth fetch budget rootDoc base value)
      (resolveValue files allowedRoots maxDepth load budget rootDoc base value) := by
  induction budget generalizing rootDoc base value with
  | zero => exact Attempt.simulates_fail _
  | succ budget ih =>
      cases value with
      | object members =>
          unfold resolveValue
          split
          · exact (simulates_resolveRef alike ih _ _ _).bind fun resolved => ih _ _ _
          · exact Attempt.simulates_fail _
          · refine Attempt.SimulatesWhile.bind ?_ fun resolved => Attempt.simulates_pure _
            refine Attempt.simulates_each members fun member => ?_
            exact (ih rootDoc base member.2).bind fun child => Attempt.simulates_pure _
      | array items =>
          unfold resolveValue
          refine Attempt.SimulatesWhile.bind ?_ fun resolved => Attempt.simulates_pure _
          exact Attempt.simulates_each items (ih rootDoc base)
      | null | bool | number | string => exact Attempt.simulates_pure _

theorem simulatesWhile_resolveFrom
    (alike : ∀ canonical, Attempt.SimulatesWhile holds related (fetch canonical) (load canonical))
    (resolver : RefResolver Path) (request : RefResolver.Request Path) :
    Attempt.SimulatesWhile holds related (resolver.resolveFrom files fetch request)
      (resolver.resolveFrom files load request) := by
  unfold RefResolver.resolveFrom
  split
  · exact Attempt.simulates_fail _
  · exact simulates_resolveValue alike _ _ _ _

theorem simulates_resolveFrom (alike : ∀ canonical, Attempt.Simulates related (fetch canonical)
      (load canonical)) (resolver : RefResolver Path) (request : RefResolver.Request Path) :
    Attempt.Simulates related (resolver.resolveFrom files fetch request)
      (resolver.resolveFrom files load request) :=
  Attempt.simulates_iff.mpr (simulatesWhile_resolveFrom
    (fun canonical => Attempt.simulates_iff.mp (alike canonical)) resolver request)

end Walk

/-! ## What the cache holds -/

section Cache

variable {files}

/-- Eviction only takes documents away. -/
theorem lookup_of_lookup_evict {limit : Nat} {cache : FiniteMap String Value}
    {order : List String} {key : String} {document : Value}
    (found : (evictExternalCacheIfNeeded limit cache order).cache.lookup key = some document) :
    cache.lookup key = some document := by
  induction order generalizing cache with
  | nil => exact found
  | cons evicted rest ih =>
      unfold evictExternalCacheIfNeeded at found
      split at found
      · have held := ih found
        rw [FiniteMap.lookup_erase_eq] at held
        split at held
        · cases held
        · exact held
      · exact found

theorem ExternalDocs.Coherent.evict {docs : ExternalDocs} (coherent : docs.Coherent files)
    (limit : Nat) : (docs.evict limit).Coherent files :=
  fun canonical document found => coherent canonical document (lookup_of_lookup_evict found)

/-- An access gives what the file of its path holds exactly if it is faithful. -/
theorem externalDocument_eq_iff {makeRoom : ExternalDocs → ExternalDocs} {canonical : Path}
    {docs : ExternalDocs} :
    (externalDocument files makeRoom canonical docs).1 = loadFile files canonical ↔
      docs.Faithful files canonical := by
  change (Attempt.andThen (ensureCached files makeRoom canonical)
    (fun _ => cachedDocument files canonical) docs).1 = _ ↔ _
  unfold Attempt.andThen ensureCached cachedDocument ExternalDocs.Faithful
  cases held : docs.cache.lookup (files.toStringLossy canonical) with
  | some document => simp [held, eq_comm]
  | none =>
      cases loaded : loadFile files canonical with
      | error error => simp [held]
      | ok document => simp [held, ExternalDocs.insert]

/-- The cached document of a path is the one its file holds. -/
theorem simulates_externalDocument (faithful : files.KeysFaithful)
    {makeRoom : ExternalDocs → ExternalDocs}
    (room : ∀ docs : ExternalDocs, docs.Coherent files → (makeRoom docs).Coherent files)
    (canonical : Path) :
    Attempt.Simulates (fun docs (_ : Unit) => docs.Coherent files)
      (externalDocument files makeRoom canonical) (fixedDocument files canonical) := by
  intro docs _ coherent
  change (Attempt.andThen (ensureCached files makeRoom canonical)
    (fun _ => cachedDocument files canonical) docs).1 = _ ∧ ExternalDocs.Coherent files
      (Attempt.andThen (ensureCached files makeRoom canonical)
        (fun _ => cachedDocument files canonical) docs).2
  unfold Attempt.andThen ensureCached cachedDocument fixedDocument
  cases held : docs.cache.lookup (files.toStringLossy canonical) with
  | some document =>
      have loaded := coherent canonical document held
      simp [held, loaded, Attempt.ofExcept, Attempt.succeed, coherent]
  | none =>
      cases loaded : loadFile files canonical with
      | error error =>
          simp [held, Attempt.ofExcept, Attempt.fail, room docs coherent]
      | ok document =>
          have kept : ((makeRoom docs).insert (files.toStringLossy canonical) document).Coherent
              files := by
            intro other found listed
            rw [ExternalDocs.insert, FiniteMap.lookup_insert_eq] at listed
            split at listed
            next same =>
              cases listed
              exact faithful canonical other document same.symm loaded
            next => exact room docs coherent other found listed
          simpa [held, loaded, ExternalDocs.insert, Attempt.ofExcept, Attempt.succeed] using kept

end Cache

/-! ## The queue and the map -/

namespace ExternalDocs

/-- The queue lists exactly the keys of the cache, each once. -/
structure Listed (docs : ExternalDocs) : Prop where
  distinct : docs.cacheOrder.Nodup
  keys : ∀ key, key ∈ docs.cacheOrder ↔ key ∈ docs.cache

theorem Listed.evict {limit : Nat} {cache : FiniteMap String Value} {order : List String}
    (listed : Listed ⟨cache, order⟩) : (evictExternalCacheIfNeeded limit cache order).Listed := by
  induction order generalizing cache with
  | nil => exact listed
  | cons evicted rest ih =>
      unfold evictExternalCacheIfNeeded
      split
      · obtain ⟨absent, distinct⟩ := List.nodup_cons.mp listed.distinct
        refine ih ⟨distinct, fun key => ?_⟩
        have whole := listed.keys key
        rw [AList.mem_erase, ← whole, List.mem_cons]
        constructor
        · exact fun member => ⟨fun same => absent (same ▸ member), .inr member⟩
        · rintro ⟨differs, same | member⟩
          · exact absurd same differs
          · exact member
      · exact listed

/-- After an eviction there is room for one more document. -/
theorem length_evict_lt {limit : Nat} (positive : 0 < limit) (cache : FiniteMap String Value)
    (order : List String) :
    (evictExternalCacheIfNeeded limit cache order).cacheOrder.length < limit := by
  induction order generalizing cache with
  | nil => exact positive
  | cons evicted rest ih =>
      unfold evictExternalCacheIfNeeded
      split
      · exact ih _
      next small => exact Nat.lt_of_not_le small

theorem length_evict_insert_le {limit : Nat} (positive : 0 < limit) (docs : ExternalDocs)
    (key : String) (document : Value) :
    ((docs.evict limit).insert key document).cacheOrder.length ≤ limit := by
  have room := length_evict_lt positive docs.cache docs.cacheOrder
  rw [ExternalDocs.insert, List.length_append, List.length_singleton]
  exact room

theorem WellKept.listed {limit : Nat} {docs : ExternalDocs} (kept : docs.WellKept limit) :
    docs.Listed :=
  ⟨kept.distinct, kept.keys⟩

theorem WellKept.evict {limit : Nat} (positive : 0 < limit) {docs : ExternalDocs}
    (kept : docs.WellKept limit) : (docs.evict limit).WellKept limit := by
  have listed : (docs.evict limit).Listed := kept.listed.evict
  exact ⟨listed.distinct, listed.keys, Nat.le_of_lt (length_evict_lt positive _ _)⟩

/-- A loaded document goes to the end of the queue. -/
theorem Listed.insert {docs : ExternalDocs} (listed : docs.Listed) {key : String}
    (absent : key ∉ docs.cache) (document : Value) : (docs.insert key document).Listed := by
  refine ⟨?_, fun other => ?_⟩
  · refine List.nodup_append.mpr ⟨listed.distinct, List.nodup_singleton key, ?_⟩
    rintro first there second here rfl
    rw [List.mem_singleton.mp here] at there
    exact absent ((listed.keys key).mp there)
  · rw [ExternalDocs.insert, AList.mem_insert, List.mem_append, List.mem_singleton,
      listed.keys other, or_comm]

end ExternalDocs

/-! ## The caches of a run -/

/-- The caches a fetch passes through: after the eviction, and after the insertion. -/
def cachesVisited (makeRoom : ExternalDocs → ExternalDocs) (canonical : Path)
    (docs : ExternalDocs) : List ExternalDocs :=
  let cacheKey := files.toStringLossy canonical
  if (docs.cache.lookup cacheKey).isSome then [docs]
  else
    match loadFile files canonical with
    | .error _ => [makeRoom docs]
    | .ok document => [makeRoom docs, (makeRoom docs).insert cacheKey document]

/-- Fetch a document through the cache, and note something about the access. -/
def loggedDocument {ω : Type} (makeRoom : ExternalDocs → ExternalDocs)
    (notes : Path → ExternalDocs → List ω) (canonical : Path) :
    Attempt String (ExternalDocs × List ω) Value := fun (docs, log) =>
  let (outcome, after) := externalDocument files makeRoom canonical docs
  (outcome, (after, log ++ notes canonical docs))

section Runs

variable {files}

/-- A fetch that gets as far as reading the cache finds the document there. -/
theorem lookup_of_ensureCached {makeRoom : ExternalDocs → ExternalDocs} {canonical : Path}
    {docs last : ExternalDocs}
    (ensured : ensureCached files makeRoom canonical docs = (.ok (), last)) :
    (last.cache.lookup (files.toStringLossy canonical)).isSome = true := by
  unfold ensureCached at ensured
  dsimp only at ensured
  split at ensured
  next present =>
    cases ensured
    exact present
  · split at ensured
    · cases ensured
    · cases ensured
      simp [ExternalDocs.insert]

/-- A fetch keeps the queue and the map, at every point. -/
theorem wellKept_of_mem_cachesVisited {limit : Nat} (positive : 0 < limit) {docs : ExternalDocs}
    (kept : docs.WellKept limit) (canonical : Path) :
    ∀ visited ∈ cachesVisited files (ExternalDocs.evict limit) canonical docs,
      visited.WellKept limit := by
  have evicted := kept.evict positive
  unfold cachesVisited
  dsimp only
  split
  · simpa using kept
  next missing =>
    have absent : files.toStringLossy canonical ∉ (docs.evict limit).cache := by
      intro member
      obtain ⟨document, found⟩ := Option.isSome_iff_exists.mp (AList.lookup_isSome.mpr member)
      exact missing (by rw [lookup_of_lookup_evict found]; rfl)
    split
    · simpa using evicted
    next document _ =>
      have listed := evicted.listed.insert absent document
      have bounded := ExternalDocs.length_evict_insert_le positive docs
        (files.toStringLossy canonical) document
      intro visited member
      rcases List.mem_pair.mp member with rfl | rfl
      · exact evicted
      · exact ⟨listed.distinct, listed.keys, bounded⟩

/-- The last cache a fetch passes through is the one it leaves behind. -/
theorem externalDocument_mem_cachesVisited (makeRoom : ExternalDocs → ExternalDocs)
    (canonical : Path) (docs : ExternalDocs) :
    (externalDocument files makeRoom canonical docs).2 ∈
      cachesVisited files makeRoom canonical docs := by
  change (Attempt.andThen (ensureCached files makeRoom canonical)
    (fun _ => cachedDocument files canonical) docs).2 ∈ _
  unfold Attempt.andThen ensureCached cachedDocument cachesVisited
  cases held : docs.cache.lookup (files.toStringLossy canonical) with
  | some document => simp [held]
  | none =>
      cases loaded : loadFile files canonical with
      | error error => simp [held]
      | ok document => simp [held, ExternalDocs.insert]

/-- The log records the run and does not change it. -/
theorem simulates_loggedDocument {ω : Type} (makeRoom : ExternalDocs → ExternalDocs)
    (notes : Path → ExternalDocs → List ω) (canonical : Path) :
    Attempt.Simulates (fun (logged : ExternalDocs × List ω) docs => logged.1 = docs)
      (loggedDocument files makeRoom notes canonical)
      (externalDocument files makeRoom canonical) := by
  rintro ⟨_, log⟩ docs rfl
  exact ⟨rfl, rfl⟩

/-- Every cache that was noted is well kept, and so is the present one. -/
structure LogKept (limit : Nat) (logged : ExternalDocs × List ExternalDocs) : Prop where
  present : logged.1.WellKept limit
  noted : ∀ docs ∈ logged.2, docs.WellKept limit

theorem simulates_loggedDocument_kept {limit : Nat} (positive : 0 < limit) (canonical : Path) :
    Attempt.Simulates (fun logged other => logged = other ∧ LogKept limit logged)
      (loggedDocument files (ExternalDocs.evict limit)
        (cachesVisited files (ExternalDocs.evict limit)) canonical)
      (loggedDocument files (ExternalDocs.evict limit)
        (cachesVisited files (ExternalDocs.evict limit)) canonical) := by
  rintro ⟨docs, log⟩ _ ⟨rfl, kept⟩
  have visited := @wellKept_of_mem_cachesVisited _ files _ positive _ kept.present canonical
  refine ⟨rfl, rfl, ?_, ?_⟩
  · exact visited _ (externalDocument_mem_cachesVisited _ canonical docs)
  · intro noted member
    rcases List.mem_append.mp member with earlier | now
    · exact kept.noted noted earlier
    · exact visited noted now

end Runs

namespace RefResolver

variable (resolver : RefResolver Path)

/-- The answer from an empty cache that never drops a document. -/
def answerUnbounded (request : Request Path) : Except String Value :=
  (resolver.resolveFrom files (externalDocument files id) request ⟨∅, []⟩).1

/-- The caches that the fetches of a request pass through, one after the other. -/
def visited (request : Request Path) : List ExternalDocs :=
  let makeRoom := ExternalDocs.evict resolver.externalCacheLimit
  (resolver.resolveFrom files (loggedDocument files makeRoom (cachesVisited files makeRoom))
    request (resolver.toExternalDocs, [])).2.2

/-- The accesses of a request to the cache: what it holds before each, and the path asked for. -/
def accesses (makeRoom : ExternalDocs → ExternalDocs) (docs : ExternalDocs)
    (request : Request Path) : List (ExternalDocs × Path) :=
  (resolver.resolveFrom files
    (loggedDocument files makeRoom fun canonical held => [(held, canonical)]) request
    (docs, [])).2.2

/-- Every access of a request to the cache is faithful where it is made. -/
def FaithfulAccesses (makeRoom : ExternalDocs → ExternalDocs) (docs : ExternalDocs)
    (request : Request Path) : Prop :=
  ∀ access ∈ resolver.accesses files makeRoom docs request, access.1.Faithful files access.2

/-- The accesses that answering a request makes are faithful. -/
def AccessesFaithfully (request : Request Path) : Prop :=
  resolver.FaithfulAccesses files (ExternalDocs.evict resolver.externalCacheLimit)
    resolver.toExternalDocs request

/--
After any earlier use and with any bound, a request is answered as from an
unbounded empty cache; the queue and the map agree and stay within the bound
throughout; and a fetch never misses what it has just loaded.
-/
def CacheTransparent : Prop :=
  ∀ (limit : Nat) (earlier : List (Request Path)) (request : Request Path),
    let used := (resolver.withExternalCacheLimit limit).fresh.after files earlier
    (used.answer files request).2 = resolver.answerUnbounded files request ∧
    (∀ docs ∈ used.toExternalDocs :: used.visited files request, docs.WellKept (max limit 1)) ∧
    ∀ canonical docs last,
      ensureCached files (ExternalDocs.evict used.externalCacheLimit) canonical docs =
        (.ok (), last) → (last.cache.lookup (files.toStringLossy canonical)).isSome = true

/-- The answer when every file is loaded whenever it is named. -/
def answerFixed (request : Request Path) : Except String Value :=
  (resolver.resolveFrom files (fixedDocument files) request ()).1

section

variable {files resolver}

/-- The logged run is the run without a log. -/
theorem logged_run {ω : Type} (makeRoom : ExternalDocs → ExternalDocs)
    (notes : Path → ExternalDocs → List ω) (docs : ExternalDocs) (request : Request Path)
    (log : List ω) :
    let logged := resolver.resolveFrom files (loggedDocument files makeRoom notes) request
      (docs, log)
    let plain := resolver.resolveFrom files (externalDocument files makeRoom) request docs
    logged.1 = plain.1 ∧ logged.2.1 = plain.2 :=
  simulates_resolveFrom (simulates_loggedDocument makeRoom notes) resolver request _ _ rfl

/-- As long as its accesses are faithful, a fetch gives what the file holds. -/
theorem simulatesWhile_fixedDocument (makeRoom : ExternalDocs → ExternalDocs) (canonical : Path) :
    Attempt.SimulatesWhile
      (fun logged : ExternalDocs × List (ExternalDocs × Path) =>
        ∀ access ∈ logged.2, access.1.Faithful files access.2)
      (fun _ (_ : Unit) => True)
      (loggedDocument files makeRoom (fun canonical held => [(held, canonical)]) canonical)
      (fixedDocument files canonical) := by
  constructor
  · rintro ⟨docs, log⟩ faithful access member
    exact faithful access (List.mem_append_left _ member)
  · rintro ⟨docs, log⟩ ⟨⟩ - faithful
    have here : docs.Faithful files canonical :=
      faithful (docs, canonical) (List.mem_append_right _ (List.mem_singleton.mpr rfl))
    refine ⟨(externalDocument_eq_iff.mpr here).trans ?_, trivial⟩
    unfold fixedDocument
    cases loadFile files canonical with
    | error error => rfl
    | ok document => rfl

/-- A request all of whose accesses are faithful ends as without a cache. -/
theorem outcome_of_faithfulAccesses {makeRoom : ExternalDocs → ExternalDocs}
    {docs : ExternalDocs} {request : Request Path}
    (faithful : resolver.FaithfulAccesses files makeRoom docs request) :
    (resolver.resolveFrom files (externalDocument files makeRoom) request docs).1 =
      resolver.answerFixed files request := by
  have alike := @simulatesWhile_fixedDocument _ files makeRoom
  have walks : Attempt.SimulatesWhile _ _ (resolver.resolveFrom files _ request)
    (resolver.resolveFrom files _ request) := simulatesWhile_resolveFrom alike resolver request
  rw [← (logged_run makeRoom (fun canonical held => [(held, canonical)]) docs request []).1]
  exact (walks.alike (docs, []) () trivial faithful).1

theorem answer_of_accessesFaithfully {request : Request Path}
    (faithful : resolver.AccessesFaithfully files request) :
    (resolver.answer files request).2 = resolver.answerFixed files request :=
  outcome_of_faithfulAccesses faithful

/-- Requests change the cache and nothing else. -/
theorem after_eq (resolver : RefResolver Path) (kept : ExternalDocs → Prop)
    (initial : kept resolver.toExternalDocs)
    (step : ∀ docs request, kept docs →
      kept (({ resolver with toExternalDocs := docs } : RefResolver Path).answer files
        request).1.toExternalDocs)
    (earlier : List (Request Path)) :
    ∃ docs, resolver.after files earlier = { resolver with toExternalDocs := docs } ∧
      kept docs := by
  refine stateAfter_invariant (fun reached => ∃ docs,
    reached = { resolver with toExternalDocs := docs } ∧ kept docs) ?_ ⟨_, rfl, initial⟩ earlier
  rintro _ request ⟨docs, rfl, holds⟩
  exact ⟨_, rfl, step docs request holds⟩

/-- With faithful keys a coherent cache makes no difference, and stays coherent. -/
theorem answer_of_coherent (faithful : files.KeysFaithful)
    (coherent : resolver.toExternalDocs.Coherent files) (request : Request Path) :
    (resolver.answer files request).2 = resolver.answerFixed files request ∧
      (resolver.answer files request).1.toExternalDocs.Coherent files :=
  simulates_resolveFrom
    (simulates_externalDocument faithful fun _ held => held.evict resolver.externalCacheLimit)
    resolver request _ () coherent

/-- With faithful keys, all accesses from a coherent cache on are faithful. -/
theorem faithfulAccesses_of_coherent (faithful : files.KeysFaithful)
    {makeRoom : ExternalDocs → ExternalDocs}
    (room : ∀ docs : ExternalDocs, docs.Coherent files → (makeRoom docs).Coherent files)
    {docs : ExternalDocs} (coherent : docs.Coherent files) (request : Request Path) :
    resolver.FaithfulAccesses files makeRoom docs request := by
  let notes : Path → ExternalDocs → List (ExternalDocs × Path) :=
    fun canonical held => [(held, canonical)]
  have alike : ∀ canonical, Attempt.Simulates
      (fun logged other => logged = other ∧ logged.1.Coherent files ∧
        ∀ access ∈ logged.2, access.1.Faithful files access.2)
      (loggedDocument files makeRoom notes canonical)
      (loggedDocument files makeRoom notes canonical) := by
    rintro canonical ⟨held, log⟩ _ ⟨rfl, coheres, noted⟩
    refine ⟨rfl, rfl, (simulates_externalDocument faithful room canonical held () coheres).2, ?_⟩
    intro access member
    rcases List.mem_append.mp member with earlier | now
    · exact noted access earlier
    · rw [List.mem_singleton.mp now]
      exact coheres canonical
  have walks : Attempt.Simulates _ (resolver.resolveFrom files _ request)
    (resolver.resolveFrom files _ request) := simulates_resolveFrom alike resolver request
  exact (walks (docs, []) _ ⟨rfl, coherent, by simp⟩).2.2.2

theorem coherent_empty : (⟨∅, []⟩ : ExternalDocs).Coherent files := by
  intro canonical document found
  rw [AList.lookup_empty] at found
  cases found

/-- Whatever a resolver was used for, with faithful keys it answers as without a cache. -/
theorem answer_after (faithful : files.KeysFaithful) (earlier : List (Request Path))
    (request : Request Path) :
    ((resolver.fresh.after files earlier).answer files request).2 =
      resolver.answerFixed files request := by
  obtain ⟨docs, used, coherent⟩ := after_eq resolver.fresh
    (ExternalDocs.Coherent files) coherent_empty
    (fun _ request held => (answer_of_coherent faithful held request).2) earlier
  rw [used]
  exact (answer_of_coherent faithful coherent request).1

/-- A request keeps the queue and the map, at every fetch. -/
theorem wellKept_visited {limit : Nat} (size : resolver.externalCacheLimit = limit)
    (positive : 0 < limit) {docs : ExternalDocs} (kept : docs.WellKept limit)
    (request : Request Path) :
    let used : RefResolver Path := { resolver with toExternalDocs := docs }
    (used.answer files request).1.toExternalDocs.WellKept limit ∧
      ∀ visited ∈ used.visited files request, visited.WellKept limit := by
  subst size
  intro used
  have alike := fun canonical => @simulates_loggedDocument_kept _ files _ positive canonical
  have whole := @simulates_resolveFrom _ _ _ files _ _ _ alike used request (docs, []) _
    ⟨rfl, kept, by simp⟩
  refine ⟨?_, whole.2.2.noted⟩
  let makeRoom := ExternalDocs.evict resolver.externalCacheLimit
  have plain := (@logged_run _ files used _ makeRoom (cachesVisited files makeRoom) docs request
    []).2
  have answered : (used.answer files request).1.toExternalDocs =
    (used.resolveFrom files (externalDocument files makeRoom) request docs).2 := rfl
  rw [answered, ← plain]
  exact whole.2.2.present

/-- A limit of none is taken for one. -/
theorem externalCacheLimit_withExternalCacheLimit (resolver : RefResolver Path) (limit : Nat) :
    (resolver.withExternalCacheLimit limit).externalCacheLimit = max limit 1 := by
  change (if limit = 0 then 1 else limit) = max limit 1
  split <;> omega

end

end RefResolver

/--
A request is answered as from an unbounded empty cache if its accesses to the
cache are faithful, here and there; an access is faithful exactly if it gives
what the file of its path holds.  In every run the queue and the map agree and
stay within the bound throughout, and a fetch never misses what it has just
loaded.
-/
theorem cache_transparent (files : Files Path) (resolver : RefResolver Path) (limit : Nat)
    (earlier : List (RefResolver.Request Path)) (request : RefResolver.Request Path) :
    let used := (resolver.withExternalCacheLimit limit).fresh.after files earlier
    let makeRoom := ExternalDocs.evict used.externalCacheLimit
    (used.AccessesFaithfully files request →
      resolver.FaithfulAccesses files id ⟨∅, []⟩ request →
        (used.answer files request).2 = resolver.answerUnbounded files request) ∧
    (∀ canonical docs, (externalDocument files makeRoom canonical docs).1 =
      loadFile files canonical ↔ docs.Faithful files canonical) ∧
    (∀ docs ∈ used.toExternalDocs :: used.visited files request, docs.WellKept (max limit 1)) ∧
    ∀ canonical docs last, ensureCached files makeRoom canonical docs = (.ok (), last) →
      (last.cache.lookup (files.toStringLossy canonical)).isSome = true := by
  have size := RefResolver.externalCacheLimit_withExternalCacheLimit resolver limit
  have positive : 0 < max limit 1 := by omega
  obtain ⟨docs, same, kept⟩ := RefResolver.after_eq
    (resolver.withExternalCacheLimit limit).fresh
    (ExternalDocs.WellKept (max limit 1))
    ⟨List.nodup_nil, fun key => by simp [RefResolver.fresh], by simp [RefResolver.fresh]⟩
    (fun docs request kept => (RefResolver.wellKept_visited size positive kept request).1) earlier
  rw [same]
  refine ⟨?_, fun canonical docs => externalDocument_eq_iff, ?_,
    fun canonical docs last => lookup_of_ensureCached⟩
  · intro faithful unbounded
    exact (RefResolver.answer_of_accessesFaithfully faithful).trans
      (RefResolver.outcome_of_faithfulAccesses unbounded).symm
  · refine List.forall_mem_cons.mpr ⟨kept, ?_⟩
    exact (RefResolver.wellKept_visited size positive kept request).2

/-- A directory `/d` of JSON files, given by their names and documents. -/
def directoryOf (documents : List (String × Value)) : Files String where
  canonicalize path :=
    if path = "/d" ∨ (documents.lookup path).isSome then .ok path
    else .error "No such file or directory (os error 2)"
  readToString path :=
    if (documents.lookup path).isSome then .ok path
    else .error "No such file or directory (os error 2)"
  join base file := base ++ "/" ++ file
  parent _ := some "/d"
  extension _ := some "json"
  startsWith path root := root.toList.isPrefixOf path.toList
  display path := path
  toStringLossy path := path
  fromYaml text := .error (.parse text)
  fromJson content :=
    match documents.lookup content with
    | some document => .ok document
    | none => .error "expected value at line 1 column 1"

theorem keysFaithful_directoryOf (documents : List (String × Value)) :
    (directoryOf documents).KeysFaithful := by
  intro canonical other document same loaded
  have equal : canonical = other := same
  exact equal ▸ loaded

/-- Two files that refer to each other. -/
def petFiles : Files String :=
  directoryOf
    [("/d/owner.json", .object [("name", .string "Ada"), ("pet", .object [("$ref",
      .string "pet.json#/kind")])]),
    ("/d/pet.json", .object [("kind", .string "cat"), ("owner", .object [("$ref",
      .string "owner.json#/name")])])]

/-- With room for one file, the two files evict each other while one of them is resolved. -/
theorem cache_transparent_pets :
    let request := RefResolver.Request.resolveValueTree
      (.object [("$ref", .string "owner.json")])
    let used := ((RefResolver.new petFiles "/d").withExternalCacheLimit 0).fresh.after petFiles
      [.resolve "/d/pet.json"]
    (used.answer petFiles request).2 =
      (RefResolver.new petFiles "/d").answerUnbounded petFiles request := by
  intro request used
  have faithful : petFiles.KeysFaithful := keysFaithful_directoryOf _
  obtain ⟨docs, same, coherent⟩ := RefResolver.after_eq
    ((RefResolver.new petFiles "/d").withExternalCacheLimit 0).fresh
    (ExternalDocs.Coherent petFiles) RefResolver.coherent_empty
    (fun _ request held => (RefResolver.answer_of_coherent faithful held request).2)
    [.resolve "/d/pet.json"]
  refine (cache_transparent petFiles (RefResolver.new petFiles "/d") 0 [.resolve "/d/pet.json"]
    request).1 ?_ ?_
  · rw [same]
    exact RefResolver.faithfulAccesses_of_coherent faithful
      (fun _ held => held.evict _) coherent request
  · exact RefResolver.faithfulAccesses_of_coherent faithful (fun _ held => held)
      RefResolver.coherent_empty request

/-! ## Paths that are no Unicode -/

/-- The bytes of a text. -/
def bytesOf (text : String) : List UInt8 := text.toList.map fun char => char.toNat.toUInt8

/-- A path as text, with the replacement character for every byte that is not ASCII. -/
def lossyText (path : List UInt8) : String :=
  String.ofList (path.map fun byte =>
    if byte < 128 then Char.ofNat byte.toNat else '\uFFFD')

/-- Two links, to files whose names are the bytes 255 and 254. -/
def linkedFiles : Files (List UInt8) where
  canonicalize path :=
    if path = bytesOf "/d/a.json" then .ok (bytesOf "/d/" ++ [255])
    else if path = bytesOf "/d/b.json" then .ok (bytesOf "/d/" ++ [254])
    else if path = bytesOf "/d" then .ok path
    else .error "No such file or directory (os error 2)"
  readToString path :=
    if path = bytesOf "/d/" ++ [255] then .ok "1"
    else if path = bytesOf "/d/" ++ [254] then .ok "2"
    else .error "No such file or directory (os error 2)"
  join base file := base ++ bytesOf "/" ++ bytesOf file
  parent _ := some (bytesOf "/d")
  extension _ := none
  startsWith path root := root.isPrefixOf path
  display := lossyText
  toStringLossy := lossyText
  fromYaml text := .error (.parse text)
  fromJson text :=
    if text = "1" then .ok (.number (.int 1))
    else if text = "2" then .ok (.number (.int 2))
    else .error "expected value at line 1 column 1"

/-- Once the first file is cached, the second one is answered with its content. -/
theorem lossy_keys_collide : ¬ (RefResolver.new linkedFiles (bytesOf "/d")).CacheTransparent
    linkedFiles := by
  intro transparent
  have alike := (transparent 128
    [.resolveValueTree (.object [("$ref", .string "a.json")])]
    (.resolveValueTree (.object [("$ref", .string "b.json")]))).1
  revert alike
  decide

end SpecMock.Core
