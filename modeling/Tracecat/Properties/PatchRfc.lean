import Tracecat.Mcp.PatchConformance

/-!
# Where a patch is not that of the RFC

The patch agrees with RFC 6902 except where the code reads more than the RFC admits: a
`~` in a pointer that is not followed by `0` or `1`, the move of a location into one of
its own children, and a `test` of a boolean against a number.
-/

namespace Tracecat

namespace JsonPatch

open Stateful

variable {α ν : Type}

/-- Equality of JSON atoms: a boolean is not a number. -/
def jsonEqual (exact : ν → ℚ) : JsonAtom ν → JsonAtom ν → Bool
  | .bool _, .number _ => false
  | .number _, .bool _ => false
  | value, other => pyEqual exact value other

theorem pyEqual_of_jsonEqual (exact : ν → ℚ) (value other : JsonAtom ν)
    (hEqual : jsonEqual exact value other = true) : pyEqual exact value other = true := by
  cases value <;> cases other <;> first | exact hEqual | cases hEqual

/-- The operation of the RFC; one that misses a member that it needs is none. -/
def toRfc (patchOp : JsonPatchOperation (JsonTree α)) : Option (Rfc6902.Operation α) :=
  match patchOp.op with
  | .add => patchOp.value.map (.add patchOp.path)
  | .remove => some (.remove patchOp.path)
  | .replace => patchOp.value.map (.replace patchOp.path)
  | .move => patchOp.from_.map (.move · patchOp.path)
  | .copy => patchOp.from_.map (.copy · patchOp.path)
  | .test => patchOp.value.map (.test patchOp.path)

/-- What the RFC makes of a document. -/
def rfcPatch (atomEqual : α → α → Bool) (tree : JsonTree α)
    (patchOps : List (JsonPatchOperation (JsonTree α))) : Option (JsonTree α) :=
  (patchOps.mapM toRfc).bind (Rfc6902.applyPatch atomEqual tree)

/-- The pointers that an operation uses. -/
def pointers {V : Type} (patchOp : JsonPatchOperation V) : List String :=
  match patchOp.op with
  | .move | .copy => patchOp.path :: patchOp.from_.toList
  | _ => [patchOp.path]

/-- An operation that the code may take and the RFC refuses. -/
inductive Suspect (exact : ν → ℚ) (tree : JsonTree (JsonAtom ν))
    (patchOp : JsonPatchOperation (JsonTree (JsonAtom ν))) : Prop
  | escape (path : String) (hPath : path ∈ pointers patchOp)
      (hParse : Rfc6902.parsePointer path = none)
  | inside (source : String) (first tokens : List String) (hOp : patchOp.op = .move)
      (hFrom : patchOp.from_ = some source) (hFirst : Rfc6902.parsePointer source = some first)
      (hTokens : Rfc6902.parsePointer patchOp.path = some tokens)
      (hInside : first <+: tokens ∧ first ≠ tokens)
  | equality (value found : JsonTree (JsonAtom ν)) (hOp : patchOp.op = .test)
      (hValue : patchOp.value = some value) (hFound : getValue patchOp.path tree = .ok found)
      (hEqual : found.equal (pyEqual exact) value = true)
      (hDistinct : found.equal (jsonEqual exact) value = false)

/-- A patch that reaches such an operation. -/
def Strays (exact : ν → ℚ) :
    JsonTree (JsonAtom ν) → List (JsonPatchOperation (JsonTree (JsonAtom ν))) → Prop
  | _, [] => False
  | tree, patchOp :: patchOps =>
      Suspect exact tree patchOp ∨
        ∃ next, applyToTree (pyEqual exact) tree patchOp = .ok next ∧ Strays exact next patchOps

/-! ## One operation -/

section Operation

variable {exact : ν → ℚ} {tree : JsonTree (JsonAtom ν)}
  {patchOp : JsonPatchOperation (JsonTree (JsonAtom ν))}

theorem decode_snoc {path : String} {tokens : List String} (hFirst : HasFirstToken path)
    (hParse : Rfc6902.parsePointer path = some tokens) :
    ∃ init last, tokens = init ++ [last] ∧ decodeJsonPointer path = .ok (init ++ [last]) := by
  have hTokens := parse_ne_nil hFirst hParse
  have hSnoc := (List.dropLast_append_getLast hTokens).symm
  refine ⟨tokens.dropLast, tokens.getLast hTokens, hSnoc, ?_⟩
  rw [← hSnoc]
  exact decode_of_parse hFirst hParse

theorem rfc_of_suspect (hSuspect : Suspect exact tree patchOp)
    (hFirst : ∀ path ∈ pointers patchOp, HasFirstToken path) :
    (toRfc patchOp).bind (Rfc6902.applyOperation (jsonEqual exact) tree) = none := by
  obtain ⟨op, path, from_, value⟩ := patchOp
  cases hSuspect with
  | escape bad hPath hParse =>
      cases op with
      | add =>
          cases List.mem_singleton.mp hPath
          cases value <;> simp [toRfc, Rfc6902.applyOperation, hParse]
      | remove =>
          cases List.mem_singleton.mp hPath
          simp [toRfc, Rfc6902.applyOperation, hParse]
      | replace =>
          cases List.mem_singleton.mp hPath
          cases value <;> simp [toRfc, Rfc6902.applyOperation, hParse]
      | move =>
          cases from_ with
          | none => rfl
          | some source =>
              rcases List.mem_cons.mp hPath with rfl | hSource
              · simp [toRfc, Rfc6902.applyOperation, hParse]
              · cases List.mem_singleton.mp hSource
                simp [toRfc, Rfc6902.applyOperation, hParse]
      | copy =>
          cases from_ with
          | none => rfl
          | some source =>
              rcases List.mem_cons.mp hPath with rfl | hSource
              · simp [toRfc, Rfc6902.applyOperation, hParse]
              · cases List.mem_singleton.mp hSource
                simp [toRfc, Rfc6902.applyOperation, hParse]
      | test =>
          cases List.mem_singleton.mp hPath
          cases value <;> simp [toRfc, Rfc6902.applyOperation, hParse]
  | inside source first tokens hOp hFrom hParse hTokens hInside =>
      cases hOp
      cases hFrom
      simp [toRfc, Rfc6902.applyOperation, hParse, hTokens, hInside]
  | equality given found hOp hValue hFound hEqual hDistinct =>
      cases hOp
      cases hValue
      cases hParse : Rfc6902.parsePointer path with
      | none => simp [toRfc, Rfc6902.applyOperation, hParse]
      | some tokens =>
          have hDecode := decode_of_parse (hFirst path List.mem_cons_self) hParse
          have hGet := getValue_toOption tree hDecode
          rw [hFound] at hGet
          simp [toRfc, Rfc6902.applyOperation, hParse, ← hGet, hDistinct, Except.toOption]

theorem moveValue_toOption {source path : String} {before init : List String} {ending last : String}
    {tree : JsonTree α} (hFrom : decodeJsonPointer source = .ok (before ++ [ending]))
    (hDecode : decodeJsonPointer path = .ok (init ++ [last])) :
    (removeValue source tree >>= fun out => addValue path out.1 out.2).toOption =
      (Rfc6902.get (before ++ [ending]) tree).bind fun gone =>
        (Rfc6902.remove (before ++ [ending]) tree).bind
          (Rfc6902.add gone (init ++ [last])) := by
  have hRemove := removeValue_toOption tree hFrom
  cases hRun : removeValue source tree with
  | error error =>
      rw [hRun] at hRemove
      cases hGet : Rfc6902.get (before ++ [ending]) tree with
      | none => rfl
      | some gone =>
          cases hRest : Rfc6902.remove (before ++ [ending]) tree with
          | none => rfl
          | some rest =>
              rw [hGet, hRest] at hRemove
              cases hRemove
  | ok out =>
      rw [hRun] at hRemove
      obtain ⟨gone, hGet, hRemoved⟩ := Option.bind_eq_some_iff.mp hRemove.symm
      obtain ⟨rest, hRest, rfl⟩ := Option.map_eq_some_iff.mp hRemoved
      rw [hGet, hRest]
      exact addValue_toOption rest hDecode gone

/-- On any other operation the code and the RFC agree. -/
theorem applyToTree_toOption (hSuspect : ¬ Suspect exact tree patchOp)
    (hFirst : ∀ path ∈ pointers patchOp, HasFirstToken path) :
    (applyToTree (pyEqual exact) tree patchOp).toOption =
      (toRfc patchOp).bind (Rfc6902.applyOperation (jsonEqual exact) tree) := by
  obtain ⟨op, path, from_, value⟩ := patchOp
  have hParsed : ∀ pointer ∈ pointers ⟨op, path, from_, value⟩,
      ∃ tokens, Rfc6902.parsePointer pointer = some tokens := by
    intro pointer hMem
    cases hParse : Rfc6902.parsePointer pointer with
    | none => exact absurd (.escape pointer hMem hParse) hSuspect
    | some tokens => exact ⟨tokens, rfl⟩
  have hPath : path ∈ pointers ⟨op, path, from_, value⟩ := by
    cases op <;> exact List.mem_cons_self
  obtain ⟨tokens, hParse⟩ := hParsed path hPath
  obtain ⟨init, last, rfl, hDecode⟩ := decode_snoc (hFirst path hPath) hParse
  cases op with
  | add =>
      cases value with
      | none => rfl
      | some value =>
          simpa [applyToTree, toRfc, Rfc6902.applyOperation, hParse] using
            addValue_toOption tree hDecode value
  | remove =>
      have hRest := removeValue_rest tree hDecode
      have hRun : (applyToTree (pyEqual exact) tree ⟨.remove, path, from_, value⟩).toOption =
          (removeValue path tree).toOption.map Prod.snd := by
        rw [applyToTree]
        generalize removeValue path tree = run
        cases run <;> rfl
      rw [hRun, hRest]
      simp [toRfc, Rfc6902.applyOperation, hParse]
  | replace =>
      cases value with
      | none => rfl
      | some value =>
          simpa [applyToTree, toRfc, Rfc6902.applyOperation, hParse] using
            replaceValue_toOption tree hDecode value
  | move =>
      cases from_ with
      | none => rfl
      | some source =>
          have hMem : source ∈ pointers (V := JsonTree (JsonAtom ν))
              ⟨.move, path, some source, value⟩ := List.mem_cons_of_mem _ List.mem_cons_self
          obtain ⟨first, hSource⟩ := hParsed source hMem
          obtain ⟨before, ending, rfl, hFrom⟩ := decode_snoc (hFirst source hMem) hSource
          have hOutside : ¬ (before ++ [ending] <+: init ++ [last] ∧
              before ++ [ending] ≠ init ++ [last]) := fun hInside =>
            hSuspect (.inside source _ _ rfl rfl hSource hParse hInside)
          simp only [toRfc, Option.map_some, Option.bind_some, Rfc6902.applyOperation, hSource,
            hParse, Option.bind_eq_bind, if_neg hOutside]
          exact moveValue_toOption hFrom hDecode
  | copy =>
      cases from_ with
      | none => rfl
      | some source =>
          have hMem : source ∈ pointers (V := JsonTree (JsonAtom ν))
              ⟨.copy, path, some source, value⟩ := List.mem_cons_of_mem _ List.mem_cons_self
          obtain ⟨first, hSource⟩ := hParsed source hMem
          have hGet := getValue_toOption tree
            (decode_of_parse (hFirst source hMem) hSource)
          simp only [toRfc, Option.map_some, Option.bind_some, Rfc6902.applyOperation, hSource,
            hParse, Option.bind_eq_bind, ← hGet, applyToTree]
          cases getValue source tree with
          | error error => rfl
          | ok found => exact addValue_toOption tree hDecode found
  | test =>
      cases value with
      | none => rfl
      | some value =>
          have hGet := getValue_toOption tree hDecode
          simp only [toRfc, Option.map_some, Option.bind_some, Rfc6902.applyOperation,
            hParse, Option.bind_eq_bind, ← hGet, applyToTree]
          cases hRun : getValue path tree with
          | error error => rfl
          | ok found =>
              change (if found.equal (pyEqual exact) value then Except.ok tree
                else .error (PatchError.testFailed path)).toOption =
                  if found.equal (jsonEqual exact) value then some tree else none
              cases hJson : found.equal (jsonEqual exact) value
              · cases hPy : found.equal (pyEqual exact) value
                · rfl
                · exact absurd (.equality value found rfl rfl hRun hPy hJson) hSuspect
              · rw [JsonTree.equal_mono (pyEqual_of_jsonEqual exact) found value hJson]
                rfl

end Operation

/-! ## Patches -/

section Patch

variable {exact : ν → ℚ} {tree : JsonTree (JsonAtom ν)}

theorem rfcPatch_cons (atomEqual : α → α → Bool) (tree : JsonTree α)
    (patchOp : JsonPatchOperation (JsonTree α)) (patchOps : List (JsonPatchOperation (JsonTree α))) :
    rfcPatch atomEqual tree (patchOp :: patchOps) =
      ((toRfc patchOp).bind (Rfc6902.applyOperation atomEqual tree)).bind fun next =>
        rfcPatch atomEqual next patchOps := by
  simp only [rfcPatch, List.mapM_cons, Rfc6902.applyPatch]
  cases toRfc patchOp with
  | none => rfl
  | some operation =>
      cases patchOps.mapM toRfc with
      | none => cases hStep : Rfc6902.applyOperation atomEqual tree operation <;> simp [hStep]
      | some operations => rfl

/-- A patch and the RFC differ exactly when the patch applies and reaches an operation
that the RFC refuses. -/
theorem applyAllToTree_toOption_iff {patchOps : List (JsonPatchOperation (JsonTree (JsonAtom ν)))}
    (hFirst : ∀ patchOp ∈ patchOps, ∀ path ∈ pointers patchOp, HasFirstToken path) :
    (applyAllToTree (pyEqual exact) tree patchOps).toOption =
        rfcPatch (jsonEqual exact) tree patchOps ↔
      ¬ (Strays exact tree patchOps ∧
        ∃ patched, applyAllToTree (pyEqual exact) tree patchOps = .ok patched) := by
  induction patchOps generalizing tree with
  | nil =>
      constructor
      · rintro - ⟨hStrays, -⟩
        exact hStrays
      · intro
        rfl
  | cons patchOp patchOps ih =>
      have hHere := hFirst patchOp List.mem_cons_self
      have hLater := fun other hMem => hFirst other (List.mem_cons_of_mem patchOp hMem)
      rw [rfcPatch_cons]
      by_cases hSuspect : Suspect exact tree patchOp
      · rw [rfc_of_suspect hSuspect hHere]
        cases applyAllToTree (pyEqual exact) tree (patchOp :: patchOps) with
        | error error =>
            refine ⟨fun _ hBoth => ?_, fun _ => rfl⟩
            obtain ⟨-, patched, hPatched⟩ := hBoth
            cases hPatched
        | ok patched =>
            refine ⟨fun hNone => ?_, fun hNot => absurd ⟨.inl hSuspect, patched, rfl⟩ hNot⟩
            cases hNone
      · rw [← applyToTree_toOption hSuspect hHere, applyAllToTree, List.foldlM_cons]
        cases hStep : applyToTree (pyEqual exact) tree patchOp with
        | error error =>
            refine ⟨fun _ hBoth => ?_, fun _ => rfl⟩
            obtain ⟨-, patched, hPatched⟩ := hBoth
            cases hPatched
        | ok next =>
            have hStrays : Strays exact tree (patchOp :: patchOps) ↔ Strays exact next patchOps := by
              rw [Strays]
              constructor
              · rintro (hHit | ⟨other, hOther, hRest⟩)
                · exact absurd hHit hSuspect
                · rw [hStep] at hOther
                  cases hOther
                  exact hRest
              · exact fun hRest => .inr ⟨next, hStep, hRest⟩
            rw [hStrays]
            exact ih hLater

/-- What a run in place returns is what the RFC makes of the document: nothing, or a
document in the heap. -/
def Agrees (run : Except PatchError Nat × CellHeap α) : Option (JsonTree α) → Prop
  | none => ∃ error, run.1 = .error error
  | some patched => ∃ result, run.1 = .ok result ∧ ValueAt run.2 result patched

theorem ValueAt.unique {heap : CellHeap α} {ref : Nat} {tree other : JsonTree α}
    (hTree : ValueAt heap ref tree) (hOther : ValueAt heap ref other) : tree = other := by
  obtain ⟨cells, hTree, hNodup⟩ := hTree
  obtain ⟨others, hOther, hOthersNodup⟩ := hOther
  -- Both are what unfolding the cells gives.
  exact Option.some.inj ((hTree.unfold_eq hNodup).symm.trans (hOther.unfold_eq hOthersNodup))

theorem pointers_of_same {heap : CellHeap α} {patchOp : JsonPatchOperation Nat}
    {treeOp : JsonPatchOperation (JsonTree α)} (hSame : SameOperation heap patchOp treeOp) :
    pointers treeOp = pointers patchOp := by
  rw [pointers, pointers, hSame.op_eq, hSame.path_eq, hSame.from_eq]

/-- A patch whose pointers have first tokens agrees with RFC 6902 unless it applies and
reaches an operation that the RFC refuses. -/
theorem patch_agrees_iff (exact : ν → ℚ) {heap : CellHeap (JsonAtom ν)} {document : Nat}
    {entries : List (String × JsonTree (JsonAtom ν))} {patchOps : List (JsonPatchOperation Nat)}
    {treeOps : List (JsonPatchOperation (JsonTree (JsonAtom ν)))}
    (hTree : ValueAt heap document (.node (.dict entries)))
    (hOps : List.Forall₂ (SameOperation heap) patchOps treeOps)
    (hFirst : ∀ patchOp ∈ patchOps, ∀ path ∈ pointers patchOp, HasFirstToken path) :
    Agrees (exec (applyJsonPatchOperations (pyEqual exact) document patchOps) heap)
        (rfcPatch (jsonEqual exact) (.node (.dict entries)) treeOps) ↔
      ¬ (Strays exact (.node (.dict entries)) treeOps ∧
        ∃ patched, applyAllToTree (pyEqual exact) (.node (.dict entries)) treeOps = .ok patched) := by
  have hTreeFirst : ∀ treeOp ∈ treeOps, ∀ path ∈ pointers treeOp, HasFirstToken path := by
    intro treeOp hMem path hPath
    obtain ⟨patchOp, hPatchOp, hSame⟩ := Checks.exists_left_of_forall₂ hOps hMem
    exact hFirst patchOp hPatchOp path (pointers_of_same hSame ▸ hPath)
  rw [← applyAllToTree_toOption_iff hTreeFirst]
  rcases applyJsonPatchOperations_tree hTree (pyEqual exact) hOps with
    ⟨error, hError, hAll⟩ | ⟨result, patched, final, hRun, hAll, hFinal⟩
  · rw [hAll]
    cases rfcPatch (jsonEqual exact) (.node (.dict entries)) treeOps with
    | none => exact ⟨fun _ => rfl, fun _ => ⟨error, hError⟩⟩
    | some other =>
        refine ⟨fun ⟨result, hResult, _⟩ => ?_, fun hEq => by cases hEq⟩
        rw [hError] at hResult
        cases hResult
  · rw [hAll, hRun]
    cases rfcPatch (jsonEqual exact) (.node (.dict entries)) treeOps with
    | none =>
        refine ⟨fun ⟨error, hError⟩ => ?_, fun hEq => by cases hEq⟩
        cases hError
    | some other =>
        constructor
        · rintro ⟨_, hResult, hOther⟩
          cases hResult
          exact congrArg some (hFinal.unique hOther)
        · intro hEq
          cases hEq
          exact ⟨result, rfl, hFinal⟩

end Patch

/-! ## A test that only the code passes -/

/-- An object with a number, and the value `true` beside it. -/
def flagHeap : CellHeap (JsonAtom Int) :=
  [.dict [("flag", 1)], .atom (.number 1), .atom (.bool true)]

def flagEntries : List (String × JsonTree (JsonAtom Int)) := [("flag", .node (.atom (.number 1)))]

/-- `{"op": "test", "path": "/flag", "value": true}`. -/
def flagPatch : List (JsonPatchOperation Nat) := [⟨.test, "/flag", none, some 2⟩]

def flagTreePatch : List (JsonPatchOperation (JsonTree (JsonAtom Int))) :=
  [⟨.test, "/flag", none, some (.node (.atom (.bool true)))⟩]

theorem valueAt_atom {heap : CellHeap α} {ref : Nat} {atom : α}
    (hCell : heap[ref]? = some (.atom atom)) : ValueAt heap ref (.node (.atom atom)) :=
  ⟨_, .node hCell rfl .nil, by simp⟩

theorem flagHeap_valueAt : ValueAt flagHeap 0 (.node (.dict flagEntries)) := by
  have hNumber : CellHeap.Holds flagHeap 1 (.node (.atom (.number 1))) {1} :=
    @CellHeap.Holds.node _ _ 1 (.atom (.number 1)) _ 0 rfl rfl .nil
  have hObject : CellHeap.Holds flagHeap 0 (.node (.dict flagEntries)) {0, 1} :=
    @CellHeap.Holds.node _ _ 0 (.dict [("flag", 1)]) _ _ rfl rfl (.cons hNumber .nil)
  exact ⟨_, hObject, by decide⟩

theorem flagPatch_same : List.Forall₂ (SameOperation flagHeap) flagPatch flagTreePatch :=
  .cons ⟨rfl, rfl, rfl, .some (valueAt_atom rfl)⟩ .nil

theorem flagPatch_first :
    ∀ patchOp ∈ flagPatch, ∀ path ∈ pointers patchOp, HasFirstToken path := by
  decide

/-- The code passes the test of the number 1 against `true`; the RFC does not. -/
theorem flagPatch_disagrees :
    ValueAt flagHeap 0 (.node (.dict flagEntries)) ∧
      List.Forall₂ (SameOperation flagHeap) flagPatch flagTreePatch ∧
      (∀ patchOp ∈ flagPatch, ∀ path ∈ pointers patchOp, HasFirstToken path) ∧
      ¬ Agrees (exec (applyJsonPatchOperations (pyEqual fun value : Int => value) 0 flagPatch)
          flagHeap)
        (rfcPatch (jsonEqual fun value : Int => value) (.node (.dict flagEntries))
          flagTreePatch) := by
  refine ⟨flagHeap_valueAt, flagPatch_same, flagPatch_first, ?_⟩
  have hRfc : rfcPatch (jsonEqual fun value : Int => value) (.node (.dict flagEntries))
      flagTreePatch = none := by rfl
  rw [hRfc]
  rintro ⟨error, hError⟩
  have hRun : (exec (applyJsonPatchOperations (pyEqual fun value : Int => value) 0 flagPatch)
      flagHeap).1 = .ok 3 := by rfl
  rw [hRun] at hError
  cases hError

/-- The condition for that patch. -/
theorem flagPatch_agrees_iff :
    Agrees (exec (applyJsonPatchOperations (pyEqual fun value : Int => value) 0 flagPatch)
          flagHeap)
        (rfcPatch (jsonEqual fun value : Int => value) (.node (.dict flagEntries))
          flagTreePatch) ↔
      ¬ (Strays (fun value : Int => value) (.node (.dict flagEntries)) flagTreePatch ∧
        ∃ patched, applyAllToTree (pyEqual fun value : Int => value) (.node (.dict flagEntries))
          flagTreePatch = .ok patched) :=
  patch_agrees_iff _ flagHeap_valueAt flagPatch_same flagPatch_first

end JsonPatch

end Tracecat
