import Tracecat.Dsl.SubflowLoop
import Tracecat.Lib.Checks
import Tracecat.Storage.Retrieval

/-!
# What a prepared loop hands to its children

When no iteration patches an object that it did not make, the trigger input and
the configuration at an index are those of that index by itself.
-/

namespace Tracecat

open ObjectHeap

/-- The trigger input and the configuration of one index, when the base context
is patched for it alone. -/
def ownIteration (evaluate : EvaluateArgs) (dslConfig : DSLConfig) (input : LoopInput Scalar)
    (index : Nat) : Option (Tree × DSLConfig) :=
  (input.aloneContext index).bind fun alone =>
    match evaluate (alone.2.follow alone.1) (alone.2.view alone.1) with
    | .ok args =>
        some (args.triggerInputs.tree fun path rest =>
          (alone.2.follow alone.1 path).bind fun ref => alone.2.view ref rest,
          args.config dslConfig)
    | .error _ => none

/-- What the children of a loop of `count` iterations receive. -/
structure HandsOut {Bytes Digest : Type} [DecidableEq Digest] (codec : BlobCodec Tree Bytes Digest)
    (own : Nat → Option (Tree × DSLConfig)) (count : Nat)
    (prepared : PreparedSubflowResult Digest) (uploads : List (Upload Bytes)) : Prop where
  total : prepared.count = .ok count
  child : ∀ index, index < count → ∃ triggerInput config handle,
    own index = some (triggerInput, config) ∧
      prepared.getTriggerInputAt index = .ok (some handle) ∧
      prepared.getConfig index = .ok config ∧
      ∀ read, codec.Reads read uploads → codec.retrieve read handle = .ok (.one triggerInput)

variable {evaluate : EvaluateArgs} {dslConfig : DSLConfig} {input : LoopInput Scalar}

/-! ## The iterations -/

/-- An iteration has the context of its index. -/
structure IterationOf (evaluate : EvaluateArgs) (dslConfig : DSLConfig) (input : LoopInput Scalar)
    (index : Nat) (iteration : SubflowIteration) : Prop where
  context : ∃ own alone args, input.aloneContext index = some (own, alone) ∧
    evaluate (alone.follow own) (alone.view own) = .ok args ∧
    iteration = ⟨alone.follow own, args.triggerInputs, args.config dslConfig⟩

theorem evaluateIteration_ok {index : Nat} {row : LoopRow LoopArena}
    {heap next : ObjectHeap LoopArena Scalar} {iteration : SubflowIteration}
    (hIndependent : input.Independent) (hHeap : LoopHeap input index heap)
    (hRow : input.rows[index]? = some row)
    (hEvaluate : evaluateIteration evaluate dslConfig heap input.base index row =
      .ok (iteration, next)) :
    LoopHeap input (index + 1) next ∧ IterationOf evaluate dslConfig input index iteration := by
  obtain ⟨own, alone, patched, hPatched, hAlone, hNext⟩ := hHeap.patch hIndependent hRow
  have hFollow : alone.follow own = patched.follow own := by
    funext path
    exact (hNext.follow_eq (Nat.lt_succ_self _) hAlone path).1
  have hView := hNext.view_eq (Nat.lt_succ_self _) hAlone
  rw [evaluateIteration, hPatched] at hEvaluate
  simp only [← hFollow, ← hView] at hEvaluate
  cases hArgs : evaluate (alone.follow own) (alone.view own) with
  | error message => simp [hArgs] at hEvaluate
  | ok args =>
      simp only [hArgs, Except.ok.injEq, Prod.mk.injEq] at hEvaluate
      obtain ⟨rfl, rfl⟩ := hEvaluate
      exact ⟨hNext, ⟨own, alone, args, hAlone, hArgs, rfl⟩⟩

theorem evaluateIterations_ok (hIndependent : input.Independent) {rows : List (LoopRow LoopArena)}
    {index : Nat} {heap last : ObjectHeap LoopArena Scalar} {iterations : List SubflowIteration}
    (hRows : input.rows.drop index = rows) (hHeap : LoopHeap input index heap)
    (hEvaluate : evaluateIterations evaluate dslConfig input.base index rows heap =
      .ok (iterations, last)) :
    LoopHeap input (index + rows.length) last ∧ iterations.length = rows.length ∧
      ∀ offset iteration, iterations[offset]? = some iteration →
        IterationOf evaluate dslConfig input (index + offset) iteration := by
  induction rows generalizing index heap iterations with
  | nil =>
      rw [evaluateIterations, Except.ok.injEq, Prod.mk.injEq] at hEvaluate
      obtain ⟨rfl, rfl⟩ := hEvaluate
      exact ⟨hHeap, rfl, by simp⟩
  | cons row rows ih =>
      obtain ⟨⟨iteration, next⟩, hFirst, hRest⟩ := Checks.bind_eq_ok.mp hEvaluate
      obtain ⟨⟨later, final⟩, hLater, hResult⟩ := Checks.bind_eq_ok.mp hRest
      rw [Except.ok.injEq, Prod.mk.injEq] at hResult
      obtain ⟨rfl, rfl⟩ := hResult
      have hRow : input.rows[index]? = some row := by
        have hHead := congrArg List.head? hRows
        rwa [List.head?_drop, List.head?_cons] at hHead
      have hTail : input.rows.drop (index + 1) = rows := by
        rw [← List.drop_drop, hRows, List.drop_one, List.tail_cons]
      obtain ⟨hNext, hIteration⟩ := evaluateIteration_ok hIndependent hHeap hRow hFirst
      obtain ⟨hLast, hLength, hOffsets⟩ := ih hTail hNext hLater
      refine ⟨?_, by rw [List.length_cons, hLength, List.length_cons], ?_⟩
      · rwa [List.length_cons, Nat.add_comm rows.length 1, ← Nat.add_assoc]
      · intro offset found hFound
        cases offset with
        | zero =>
            cases hFound
            exact hIteration
        | succ offset =>
            rw [Nat.add_comm offset 1, ← Nat.add_assoc]
            exact hOffsets offset found (by rwa [List.getElem?_cons_succ] at hFound)

/-- What an iteration evaluated to is read at the end as it is by itself. -/
theorem IterationOf.read_eq {index count : Nat} {heap : ObjectHeap LoopArena Scalar}
    {iteration : SubflowIteration} (hOf : IterationOf evaluate dslConfig input index iteration)
    (hHeap : LoopHeap input count heap) (hIndex : index < count) :
    ownIteration evaluate dslConfig input index = some (iteration.read heap, iteration.config) := by
  obtain ⟨own, alone, args, hAlone, hArgs, rfl⟩ := hOf.context
  have hRead : (fun path rest => (alone.follow own path).bind fun ref => alone.view ref rest) =
      fun path rest => (alone.follow own path).bind fun ref => heap.view ref rest := by
    funext path rest
    cases hFound : alone.follow own path with
    | none => rfl
    | some found =>
        rw [Option.bind_some, Option.bind_some,
          (hHeap.follow_eq hIndex hAlone path).2 found hFound]
  rw [ownIteration, hAlone, Option.bind_some]
  simp only [hArgs, hRead]
  rfl

theorem evaluateLoopIterations_ok (hIndependent : input.Independent) {triggerInputs : List Tree}
    {configs : RuntimeConfigs}
    (hEvaluate : evaluateLoopIterations evaluate dslConfig input = .ok (triggerInputs, configs)) :
    triggerInputs.length = input.rows.length ∧ ∃ configsList, configs = runtimeConfigs configsList ∧
      ∀ index, index < input.rows.length → ∃ triggerInput config,
        ownIteration evaluate dslConfig input index = some (triggerInput, config) ∧
          triggerInputs[index]? = some triggerInput ∧ configsList[index]? = some config := by
  unfold evaluateLoopIterations at hEvaluate
  split_ifs at hEvaluate
  obtain ⟨⟨iterations, heap⟩, hIterations, hResult⟩ := Checks.bind_eq_ok.mp hEvaluate
  rw [Except.ok.injEq, Prod.mk.injEq] at hResult
  obtain ⟨rfl, rfl⟩ := hResult
  obtain ⟨hHeap, hLength, hOf⟩ := evaluateIterations_ok hIndependent rfl .start hIterations
  rw [Nat.zero_add, List.drop_zero] at hHeap
  rw [List.drop_zero] at hLength
  refine ⟨by rw [List.length_map, hLength], _, rfl, fun index hIndex => ?_⟩
  have hGet := List.getElem?_eq_getElem (hLength.symm ▸ hIndex : index < iterations.length)
  have hIteration := hOf index _ hGet
  rw [Nat.zero_add] at hIteration
  refine ⟨_, _, hIteration.read_eq hHeap hIndex, ?_, ?_⟩
  · rw [List.getElem?_map, hGet, Option.map_some]
  · rw [List.getElem?_map, hGet, Option.map_some]

/-! ## The prepared result -/

theorem getConfig_runtimeConfigs {Digest : Type} {prepared : PreparedSubflowResult Digest}
    {configs : List DSLConfig} {index : Nat} {config : DSLConfig}
    (hPrepared : prepared.runtimeConfigs = some (runtimeConfigs configs))
    (hConfig : configs[index]? = some config) : prepared.getConfig index = .ok config := by
  rw [PreparedSubflowResult.getConfig, hPrepared]
  cases configs with
  | nil => cases hConfig
  | cons first rest =>
      rw [runtimeConfigs]
      by_cases hAll : rest.all fun other => other = first
      · rw [if_pos hAll]
        -- all configurations are the first one
        have hSame : config = first := by
          rcases List.mem_cons.mp (List.mem_of_getElem? hConfig) with hFirst | hRest
          · exact hFirst
          · simpa using List.all_eq_true.mp hAll config hRest
        rw [hSame]
      · rw [if_neg hAll]
        simp only [hConfig]

variable {Bytes Digest : Type} [DecidableEq Digest] {codec : BlobCodec Tree Bytes Digest}
  {config : StorageConfig} {key : String}

theorem getTriggerInputAt_storeList {prepared : PreparedSubflowResult Digest} {items : List Tree}
    (hStored : prepared.triggerInputs = some (codec.storeList config key items).1)
    {index : Nat} {item : Tree} (hItem : items[index]? = some item) :
    ∃ handle, prepared.getTriggerInputAt index = .ok (some handle) ∧
      ∀ read, codec.Reads read (codec.storeList config key items).2 →
        codec.retrieve read handle = .ok (.one item) := by
  rw [PreparedSubflowResult.getTriggerInputAt, hStored]
  cases hHandle : (codec.storeList config key items).1 with
  | item object =>
      rw [BlobCodec.storeList] at hHandle
      split_ifs at hHandle
  | inlineList inline =>
      have hInline : inline = items := by
        rw [BlobCodec.storeList] at hHandle
        split_ifs at hHandle
        exact (StoredHandle.inlineList.inj hHandle).symm
      rw [hInline]
      simp only [hItem]
      exact ⟨_, rfl, fun read _ => rfl⟩
  | collection collection =>
      exact ⟨_, rfl, fun read hReads => BlobCodec.retrieve_storeList_at hReads hHandle hItem⟩

omit [DecidableEq Digest] in
theorem count_storeList {prepared : PreparedSubflowResult Digest} {items : List Tree}
    (hStored : prepared.triggerInputs = some (codec.storeList config key items).1) :
    prepared.count = .ok items.length := by
  rw [PreparedSubflowResult.count, hStored, BlobCodec.storeList]
  by_cases hExternal : config.externalizationEnabled
  · rw [if_pos hExternal]
    simp [BlobCodec.storeCollectionAsRefs, BlobCodec.storeCollection]
  · rw [if_neg hExternal]

/-- A prepared loop hands every child what its index gets by itself. -/
theorem prepareSubflow_handsOut (hIndependent : input.Independent)
    {prepared : PreparedSubflowResult Digest} {uploads : List (Upload Bytes)}
    (hPrepare : prepareSubflow codec config key evaluate dslConfig input =
      .ok (prepared, uploads)) :
    HandsOut codec (ownIteration evaluate dslConfig input) input.rows.length prepared uploads := by
  obtain ⟨⟨triggerInputs, configs⟩, hEvaluate, hResult⟩ := Checks.bind_eq_ok.mp hPrepare
  rw [Except.ok.injEq, Prod.mk.injEq] at hResult
  obtain ⟨hPrepared, rfl⟩ := hResult
  obtain ⟨hLength, configsList, rfl, hChildren⟩ := evaluateLoopIterations_ok hIndependent hEvaluate
  have hStored : prepared.triggerInputs =
      some (codec.storeList config (key ++ "/trigger_inputs") triggerInputs).1 := by
    rw [← hPrepared]
  have hConfigs : prepared.runtimeConfigs = some (runtimeConfigs configsList) := by
    rw [← hPrepared]
  refine ⟨by rw [count_storeList hStored, hLength], fun index hIndex => ?_⟩
  obtain ⟨triggerInput, runtimeConfig, hOwn, hTrigger, hConfig⟩ := hChildren index hIndex
  obtain ⟨handle, hHandle, hRetrieve⟩ := getTriggerInputAt_storeList hStored hTrigger
  exact ⟨triggerInput, runtimeConfig, handle, hOwn, hHandle,
    getConfig_runtimeConfigs hConfigs hConfig, hRetrieve⟩

end Tracecat
