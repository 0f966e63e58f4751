import Tracecat.Lib.Assoc
import Tracecat.Lib.Checks
import Tracecat.Mcp.PatchApart
import Tracecat.Mcp.PatchTrees

/-!
# A patch stays inside its allow-list

A patch whose paths were validated changes, if it succeeds, no top-level key outside
the allow-list; and whether it succeeds or not, the objects of the caller stay.
-/

namespace Tracecat

namespace JsonPatch

open CellHeap Stateful

variable {α β X : Type}

/-! ## Entries under other keys -/

theorem lookup_modify {entries : List (String × X)} {key other : String} {position : Nat}
    (value : X) (hPosition : JsonNode.position? entries key = some position) (hOther : other ≠ key) :
    (entries.modify position fun entry => (entry.1, value)).lookup other =
      entries.lookup other := by
  induction entries generalizing position with
  | nil => cases hPosition
  | cons entry entries ih =>
      rw [JsonNode.position?, List.findIdx?_cons] at hPosition
      split at hPosition
      · rename_i hEntry
        obtain rfl : 0 = position := Option.some.inj hPosition
        have hNe : other ≠ entry.1 := by rwa [eq_of_beq hEntry]
        rw [List.modify_zero_cons, Assoc.lookup_cons_eq_ite, Assoc.lookup_cons_eq_ite, if_neg hNe,
          if_neg hNe]
      · obtain ⟨before, hBefore, rfl⟩ := Option.map_eq_some_iff.mp hPosition
        rw [List.modify_succ_cons, Assoc.lookup_cons_eq_ite, Assoc.lookup_cons_eq_ite, ih hBefore]

theorem lookup_eraseIdx {entries : List (String × X)} {key other : String} {position : Nat}
    (hPosition : JsonNode.position? entries key = some position) (hOther : other ≠ key) :
    (entries.eraseIdx position).lookup other = entries.lookup other := by
  induction entries generalizing position with
  | nil => cases hPosition
  | cons entry entries ih =>
      rw [JsonNode.position?, List.findIdx?_cons] at hPosition
      split at hPosition
      · rename_i hEntry
        obtain rfl : 0 = position := Option.some.inj hPosition
        have hNe : other ≠ entry.1 := by rwa [eq_of_beq hEntry]
        rw [List.eraseIdx_cons_zero, Assoc.lookup_cons_eq_ite, if_neg hNe]
      · obtain ⟨before, hBefore, rfl⟩ := Option.map_eq_some_iff.mp hPosition
        rw [List.eraseIdx_cons_succ, Assoc.lookup_cons_eq_ite, Assoc.lookup_cons_eq_ite, ih hBefore]

theorem lookup_append {entries : List (String × X)} {key other : String} (value : X)
    (hOther : other ≠ key) : (entries ++ [(key, value)]).lookup other = entries.lookup other := by
  have hNe : (other == key) = false := beq_eq_false_iff_ne.mpr hOther
  rw [List.lookup_append]
  simp [List.lookup_cons, hNe]

/-! ## Changes below one top-level key -/

/-- The document is an object whose entries outside the allow-list are those of another. -/
def Framed (allowed : List String) (entries : List (String × JsonTree α)) (tree : JsonTree α) :
    Prop :=
  ∃ others, tree = .node (.dict others) ∧ ∀ key, key ∉ allowed → others.lookup key = entries.lookup key

section Framed

variable {allowed : List String} {entries others : List (String × JsonTree α)} {path key : String}
  {tree value : JsonTree α}

theorem Framed.refl (allowed : List String) (entries : List (String × JsonTree α)) :
    Framed allowed entries (.node (.dict entries)) := ⟨entries, rfl, fun _ _ => rfl⟩

theorem Framed.trans (hFirst : Framed allowed entries (.node (.dict others)))
    (hSecond : Framed allowed others tree) : Framed allowed entries tree := by
  obtain ⟨_, hEq, hFirst⟩ := hFirst
  cases hEq
  obtain ⟨last, rfl, hSecond⟩ := hSecond
  exact ⟨last, rfl, fun key hKey => (hSecond key hKey).trans (hFirst key hKey)⟩

theorem childSlot_dict {entries : List (String × X)}
    {slot : Fin (JsonNode.dict entries : JsonNode α X).shape.children.length}
    (hSlot : childSlot path (JsonNode.dict entries : JsonNode α X).shape key = .ok slot) :
    JsonNode.position? entries key = some slot.val := by
  have hKeys : JsonNode.position? (entries.map fun entry => (entry.1, ())) key =
      JsonNode.position? entries key := by
    rw [position?_eq_keys, position?_eq_keys, List.map_map]
    rfl
  rw [← hKeys]
  simp only [childSlot, JsonNode.shape, JsonNode.map] at hSlot
  split at hSlot
  · cases hSlot
  · rename_i position hPosition
    cases hSlot
    exact hPosition

theorem setChild_framed {slot : Fin (JsonNode.dict entries : JsonNode α _).shape.children.length}
    (hSlot : childSlot path (JsonNode.dict entries : JsonNode α _).shape key = .ok slot)
    (hAllowed : key ∈ allowed) (value : JsonTree α) :
    Framed allowed entries (.node ((JsonNode.dict entries).setChild slot value)) := by
  refine ⟨_, rfl, fun other hOther => lookup_modify value (childSlot_dict hSlot) ?_⟩
  rintro rfl
  exact hOther hAllowed

/-- A document around a node that keys lead to, the first of which is allowed. -/
theorem locate_framed {tokens : List String} {found : JsonNode α (JsonTree α)}
    {plug : JsonNode α (JsonTree α) → JsonTree α} (hAllowed : key ∈ allowed)
    (hLocate : (JsonTree.node (.dict entries)).locate (childSlot path) (key :: tokens) =
      .ok (found, plug)) (node : JsonNode α (JsonTree α)) :
    Framed allowed entries (plug node) := by
  cases hSlot : childSlot path (JsonNode.dict entries : JsonNode α _).shape key with
  | error error =>
      rw [JsonTree.locate_cons_error rfl hSlot] at hLocate
      cases hLocate
  | ok slot =>
      rw [JsonTree.locate_cons_ok rfl hSlot (JsonNode.getElem?_childAt _ slot)] at hLocate
      obtain ⟨focus, -, hFocus⟩ := Checks.map_eq_ok.mp hLocate
      cases hFocus
      exact setChild_framed hSlot hAllowed _

theorem changeTree_framed {tokens : List String} {result : β}
    {change : String → JsonNode α (JsonTree α) → Except PatchError (β × JsonNode α (JsonTree α))}
    (hDecode : decodeJsonPointer path = .ok (key :: tokens)) (hAllowed : key ∈ allowed)
    (hChange : ∀ {result changed}, change key (.dict entries) = .ok (result, changed) →
      Framed allowed entries (.node changed))
    (hTree : changeTree path change (.node (.dict entries)) = .ok (result, tree)) :
    Framed allowed entries tree := by
  cases tokens with
  | nil =>
      rw [changeTree, locateParent_eq _ hDecode (List.getLast?_singleton)] at hTree
      simp only [List.dropLast_singleton, JsonTree.locate, JsonTree.top, bind, Except.bind,
        isContainer, if_true] at hTree
      cases hEq : change key (.dict entries) with
      | error error => rw [hEq] at hTree; cases hTree
      | ok outcome =>
          rw [hEq] at hTree
          cases hTree
          exact hChange hEq
  | cons second tokens =>
      obtain ⟨token, hLast⟩ : ∃ token, (key :: second :: tokens).getLast? = some token :=
        ⟨_, List.getLast?_eq_some_getLast (List.cons_ne_nil _ _)⟩
      rw [changeTree, locateParent_eq _ hDecode hLast, List.dropLast_cons_cons] at hTree
      cases hLocate : (JsonTree.node (.dict entries)).locate (childSlot path)
          (key :: (second :: tokens).dropLast) with
      | error error => rw [hLocate] at hTree; cases hTree
      | ok focus =>
          rw [hLocate] at hTree
          simp only [bind, Except.bind] at hTree
          cases hContainer : isContainer focus.1
          · rw [hContainer] at hTree
            cases hTree
          · simp only [hContainer, if_true] at hTree
            cases hEq : change token focus.1 with
            | error error => rw [hEq] at hTree; cases hTree
            | ok outcome =>
                rw [hEq] at hTree
                cases hTree
                exact locate_framed hAllowed hLocate _

/-! ## Operations -/

/-- The first token of a pointer is what the check of the path compares. -/
theorem decode_of_topLevel {tokens : List String} (hTop : patchTopLevel path = .ok key)
    (hDecode : decodeJsonPointer path = .ok tokens) : ∃ rest, tokens = key :: rest := by
  rw [patchTopLevel] at hTop
  rw [decodeJsonPointer] at hDecode
  cases hSlash : startsWithSlash path with
  | false => rw [hSlash] at hTop; cases hTop
  | true =>
      simp only [hSlash, Bool.not_true, Bool.false_eq_true, if_false] at hTop hDecode
      split at hDecode
      · cases hDecode
      · cases hDecode
        cases hParts : pathParts path with
        | nil => rw [hParts] at hTop; cases hTop
        | cons part parts =>
            rw [hParts] at hTop
            simp only at hTop
            split at hTop
            · cases hTop
            · cases hTop
              exact ⟨_, rfl⟩

section

variable (hValid : validatePath allowed path = .ok ())
include hValid

/-- A path that passes the check is that of an allowed key, or cannot be decoded. -/
theorem decode_of_valid :
    (∃ error, decodeJsonPointer path = .error error) ∨
      ∃ key tokens, decodeJsonPointer path = .ok (key :: tokens) ∧ key ∈ allowed := by
  cases hDecode : decodeJsonPointer path with
  | error error => exact .inl ⟨error, rfl⟩
  | ok tokens =>
      rw [validatePath] at hValid
      obtain ⟨key, hTop, hKey⟩ := Checks.bind_eq_ok.mp hValid
      split at hKey
      · rename_i hAllowed
        obtain ⟨rest, rfl⟩ := decode_of_topLevel hTop hDecode
        exact .inr ⟨key, rest, rfl, hAllowed⟩
      · cases hKey

theorem changeTree_valid {result : β}
    {change : String → JsonNode α (JsonTree α) → Except PatchError (β × JsonNode α (JsonTree α))}
    (hChange : ∀ {key result changed}, key ∈ allowed →
      change key (.dict entries) = .ok (result, changed) → Framed allowed entries (.node changed))
    (hTree : changeTree path change (.node (.dict entries)) = .ok (result, tree)) :
    Framed allowed entries tree := by
  rcases decode_of_valid hValid with ⟨error, hDecode⟩ | ⟨key, tokens, hDecode, hAllowed⟩
  · rw [changeTree, locateParent, hDecode] at hTree
    cases hTree
  · exact changeTree_framed hDecode hAllowed (hChange hAllowed) hTree

theorem addValue_framed (hTree : addValue path value (.node (.dict entries)) = .ok tree) :
    Framed allowed entries tree := by
  obtain ⟨⟨result, patched⟩, hChange, rfl⟩ := Checks.map_eq_ok.mp hTree
  refine changeTree_valid hValid (fun {key result changed} hAllowed hAdd => ?_) hChange
  obtain ⟨added, hAdd, hEq⟩ := Checks.map_eq_ok.mp hAdd
  cases hEq
  have hOther : ∀ {other : String}, other ∉ allowed → other ≠ key := by
    rintro other hOther rfl
    exact hOther hAllowed
  rw [containerAdd] at hAdd
  cases hPosition : JsonNode.position? entries key with
  | some position =>
      rw [hPosition] at hAdd
      cases hAdd
      exact ⟨_, rfl, fun other hNot => lookup_modify value hPosition (hOther hNot)⟩
  | none =>
      rw [hPosition] at hAdd
      cases hAdd
      exact ⟨_, rfl, fun other hNot => lookup_append value (hOther hNot)⟩

theorem removeValue_framed {gone : JsonTree α}
    (hTree : removeValue path (.node (.dict entries)) = .ok (gone, tree)) :
    Framed allowed entries tree := by
  refine changeTree_valid hValid (fun {key result changed} hAllowed hRemove => ?_) hTree
  cases hSlot : childSlot path (JsonNode.dict entries : JsonNode α _).shape key with
  | error error => rw [containerRemove_error rfl hSlot] at hRemove; cases hRemove
  | ok slot =>
      rw [containerRemove_ok rfl hSlot (JsonNode.getElem?_childAt _ slot)] at hRemove
      cases hRemove
      refine ⟨_, rfl, fun other hNot => lookup_eraseIdx (childSlot_dict hSlot) ?_⟩
      rintro rfl
      exact hNot hAllowed

theorem replaceValue_framed (hTree : replaceValue path value (.node (.dict entries)) = .ok tree) :
    Framed allowed entries tree := by
  obtain ⟨⟨result, patched⟩, hChange, rfl⟩ := Checks.map_eq_ok.mp hTree
  refine changeTree_valid hValid (fun {key result changed} hAllowed hReplace => ?_) hChange
  obtain ⟨replaced, hReplace, hEq⟩ := Checks.map_eq_ok.mp hReplace
  cases hEq
  cases hSlot : childSlot path (JsonNode.dict entries : JsonNode α _).shape key with
  | error error => rw [containerReplace_error rfl value hSlot] at hReplace; cases hReplace
  | ok slot =>
      rw [containerReplace_ok rfl value hSlot] at hReplace
      cases hReplace
      exact setChild_framed hSlot hAllowed value

end

def ValidOperation {V : Type} (allowed : List String) (patchOp : JsonPatchOperation V) : Prop :=
  validatePath allowed patchOp.path = .ok () ∧
    ∀ source, patchOp.from_ = some source → validatePath allowed source = .ok ()

theorem validOperation_of_mem {V : Type} {patchOps : List (JsonPatchOperation V)}
    (hValid : validatePatchPaths patchOps allowed = .ok ()) :
    ∀ patchOp ∈ patchOps, ValidOperation allowed patchOp := by
  intro patchOp hMem
  have hCheck := Checks.forM_eq_ok.mp hValid patchOp hMem
  obtain ⟨hPath, hFrom⟩ := Checks.then_eq_ok.mp hCheck
  refine ⟨hPath, fun source hSource => ?_⟩
  rw [hSource] at hFrom
  exact hFrom

theorem applyToTree_framed {atomEqual : α → α → Bool} {treeOp : JsonPatchOperation (JsonTree α)}
    (hValid : ValidOperation allowed treeOp)
    (hTree : applyToTree atomEqual (.node (.dict entries)) treeOp = .ok tree) :
    Framed allowed entries tree := by
  obtain ⟨op, path, from_, given⟩ := treeOp
  obtain ⟨hPath, hFrom⟩ := hValid
  cases op with
  | add =>
      cases given with
      | none => cases hTree
      | some value => exact addValue_framed hPath hTree
  | remove =>
      obtain ⟨⟨gone, rest⟩, hRemove, rfl⟩ := Checks.map_eq_ok.mp hTree
      exact removeValue_framed hPath hRemove
  | replace =>
      cases given with
      | none => cases hTree
      | some value => exact replaceValue_framed hPath hTree
  | move =>
      cases from_ with
      | none => cases hTree
      | some source =>
          obtain ⟨⟨moved, rest⟩, hRemove, hAdd⟩ := Checks.bind_eq_ok.mp hTree
          obtain ⟨others, rfl, hOthers⟩ := removeValue_framed (hFrom source rfl) hRemove
          exact Framed.trans ⟨others, rfl, hOthers⟩ (addValue_framed hPath hAdd)
  | copy =>
      cases from_ with
      | none => cases hTree
      | some source =>
          obtain ⟨found, -, hAdd⟩ := Checks.bind_eq_ok.mp hTree
          exact addValue_framed hPath hAdd
  | test =>
      cases given with
      | none => cases hTree
      | some value =>
          obtain ⟨current, -, hTest⟩ := Checks.bind_eq_ok.mp hTree
          split at hTest
          · cases hTest
            exact Framed.refl allowed entries
          · cases hTest

theorem applyAllToTree_framed {atomEqual : α → α → Bool}
    {treeOps : List (JsonPatchOperation (JsonTree α))}
    (hValid : ∀ treeOp ∈ treeOps, ValidOperation allowed treeOp)
    (hTree : applyAllToTree atomEqual (.node (.dict entries)) treeOps = .ok tree) :
    Framed allowed entries tree := by
  induction treeOps generalizing entries with
  | nil =>
      cases hTree
      exact Framed.refl allowed entries
  | cons treeOp treeOps ih =>
      rw [applyAllToTree, List.foldlM_cons] at hTree
      obtain ⟨middle, hFirst, hRest⟩ := Checks.bind_eq_ok.mp hTree
      obtain ⟨others, rfl, hOthers⟩ := applyToTree_framed (hValid treeOp List.mem_cons_self) hFirst
      have hLater := ih (fun other hMem => hValid other (List.mem_cons_of_mem _ hMem)) hRest
      exact Framed.trans ⟨others, rfl, hOthers⟩ hLater

end Framed

/-! ## The patch in place -/

/-- What a patch keeps: the objects of the caller whether it succeeds or not, and in the
patched document every top-level key outside the allow-list. -/
structure StaysInside (heap : CellHeap α) (document : Nat) (allowed : List String)
    (patchOps : List (JsonPatchOperation Nat)) (run : Except PatchError Nat × CellHeap α) :
    Prop where
  /-- The caller's document and values are exactly as they were. -/
  unchanged : ∀ ref, ref < heap.length → run.2[ref]? = heap[ref]?
  /-- The document that a successful patch returns is framed. -/
  framed : ∀ entries treeOps result, ValueAt heap document (.node (.dict entries)) →
    List.Forall₂ (SameOperation heap) patchOps treeOps → run.1 = .ok result →
    ∃ others, ValueAt run.2 result (.node (.dict others)) ∧
      ∀ key, key ∉ allowed → others.lookup key = entries.lookup key

/-- A validated patch stays inside its allow-list and leaves the caller's objects alone. -/
theorem patch_staysInside {ν : Type} (exact : ν → ℚ) (heap : CellHeap (JsonAtom ν))
    (document : Nat) (allowed : List String) (patchOps : List (JsonPatchOperation Nat))
    (hValid : validatePatchPaths patchOps allowed = .ok ()) :
    StaysInside heap document allowed patchOps
      (exec (applyJsonPatchOperations (pyEqual exact) document patchOps) heap) := by
  refine ⟨fun ref hRef => ?_, fun entries treeOps result hTree hOps hResult => ?_⟩
  · exact (applyJsonPatchOperations_apart (pyEqual exact) heap document patchOps).same ref hRef
  · rcases applyJsonPatchOperations_tree hTree (pyEqual exact) hOps with
      ⟨error, hError, -⟩ | ⟨final, patched, after, hRun, hPatched, hFinal⟩
    · rw [hError] at hResult
      cases hResult
    · rw [hRun] at hResult ⊢
      cases hResult
      have hTreeValid : ∀ treeOp ∈ treeOps, ValidOperation allowed treeOp := by
        intro treeOp hMem
        obtain ⟨patchOp, hPatchOp, hSame⟩ := Checks.exists_left_of_forall₂ hOps hMem
        obtain ⟨hPath, hFrom⟩ := validOperation_of_mem hValid patchOp hPatchOp
        exact ⟨hSame.path_eq ▸ hPath, fun source hSource => hFrom source (hSame.from_eq ▸ hSource)⟩
      obtain ⟨others, rfl, hLookup⟩ := applyAllToTree_framed hTreeValid hPatched
      exact ⟨others, hFinal, hLookup⟩

/-- An object with three keys. -/
def sampleHeap : CellHeap (JsonAtom Int) :=
  [.dict [("metadata", 1), ("layout", 2), ("version", 3)], .dict [], .list [], .atom (.number 1)]

/-- A patch that moves a section and copies another one into it. -/
def samplePatch : List (JsonPatchOperation Nat) :=
  [⟨.move, "/layout/-", some "/metadata", none⟩, ⟨.copy, "/layout/0/a~1b", some "/layout", none⟩]

theorem samplePatch_staysInside :
    validatePatchPaths samplePatch ["metadata", "layout"] = .ok () ∧
      StaysInside sampleHeap 0 ["metadata", "layout"] samplePatch
        (exec (applyJsonPatchOperations (pyEqual fun value : Int => value) 0 samplePatch)
          sampleHeap) :=
  ⟨rfl, patch_staysInside _ sampleHeap 0 _ samplePatch rfl⟩

end JsonPatch

end Tracecat
