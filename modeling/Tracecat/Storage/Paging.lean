import Tracecat.Lib.Paging
import Tracecat.Storage.Object

/-!
# Pages of a collection

What the functions of `storage/collection.py` do that read a stored collection,
over any way of fetching a blob: `codec.fetch` gives the results, and a fetch that
keeps a log gives the blobs that are read.
-/

namespace Tracecat
namespace BlobCodec

open Slices

variable {Value Bytes Digest : Type}

/-! ## A stored collection -/

section Chunks

variable {config : StorageConfig} {items : List (ChunkItem Value Digest)}

def chunkItems (config : StorageConfig) (items : List (ChunkItem Value Digest)) (index : Nat) :
    List (ChunkItem Value Digest) :=
  (items.take (min (index * config.chunkSize + config.chunkSize) items.length)).drop
    (index * config.chunkSize)

theorem getElem?_chunkItems {position : Nat} (hPosition : position < items.length) :
    (chunkItems config items (position / config.chunkSize))[position % config.chunkSize]? =
      items[position]? := by
  have hSplit := Nat.div_add_mod position config.chunkSize
  have hMod := Nat.mod_lt position config.chunkSize_pos
  have hStart : position / config.chunkSize * config.chunkSize + position % config.chunkSize =
      position := by
    rw [Nat.mul_comm]
    exact hSplit
  rw [chunkItems, List.getElem?_drop, hStart, List.getElem?_take_of_lt]
  omega

theorem numChunks_eq {count : Nat} (hCount : 0 < count) :
    numChunks config count = (count - 1) / config.chunkSize + 1 := by
  have hShift : count + config.chunkSize - 1 = count - 1 + config.chunkSize := by omega
  rw [numChunks, if_pos hCount, hShift, Nat.add_div_right _ config.chunkSize_pos]

theorem length_le_numChunks_mul {count : Nat} (hCount : 0 < count) :
    count ≤ numChunks config count * config.chunkSize := by
  rw [numChunks_eq hCount]
  have hDiv := Nat.lt_div_mul_add (a := count - 1) config.chunkSize_pos
  rw [Nat.succ_mul]
  omega

end Chunks

section Stored

variable {m : Type → Type} [Monad m] [LawfulMonad m] [MonadExceptOf (StorageError Digest) m]
  {fetch : ObjectRef Digest → m (Document Value Digest)}
  {codec : BlobCodec Value Bytes Digest} {config : StorageConfig} {keyPrefix : String}
  {items : List (ChunkItem Value Digest)} {elementKind : ElementKind}

/-- The fetches of what was uploaded succeed, and do no more than visit the
blob. -/
def Visits (codec : BlobCodec Value Bytes Digest)
    (fetch : ObjectRef Digest → m (Document Value Digest)) (visit : ObjectRef Digest → m Unit)
    (uploads : List (Upload Bytes)) : Prop :=
  ∀ key document, ⟨key, codec.serialize document⟩ ∈ uploads →
    fetch (codec.refOf ⟨key, codec.serialize document⟩) =
      (do visit (codec.refOf ⟨key, codec.serialize document⟩); return document)

def chunkRef (codec : BlobCodec Value Bytes Digest) (config : StorageConfig) (keyPrefix : String)
    (items : List (ChunkItem Value Digest)) (index : Nat) : ObjectRef Digest :=
  codec.refOf (codec.chunkUpload config keyPrefix items index)

def manifestOf (codec : BlobCodec Value Bytes Digest) (config : StorageConfig) (keyPrefix : String)
    (items : List (ChunkItem Value Digest)) (elementKind : ElementKind) :
    CollectionManifestV1 Digest :=
  ⟨items.length, config.chunkSize, elementKind,
    ((List.range (numChunks config items.length)).map
      (codec.chunkUpload config keyPrefix items)).map codec.refOf⟩

theorem mapM_visit {α β : Type} {step : α → m β} {visit : α → m Unit} {result : α → β}
    {steps : List α} (hStep : ∀ item ∈ steps, step item = (do visit item; return result item)) :
    steps.mapM step = (do steps.forM visit; return steps.map result) := by
  induction steps with
  | nil => simp
  | cons item steps ih =>
      rw [List.mapM_cons, hStep item List.mem_cons_self,
        ih fun other hOther => hStep other (List.mem_cons_of_mem _ hOther)]
      simp

variable {visit : ObjectRef Digest → m Unit}
  (hVisits : Visits codec fetch visit (codec.storeCollection config keyPrefix items elementKind).2)
include hVisits

theorem manifestBy_stored {collection : CollectionObject Digest}
    (hRef : collection.manifestRef =
      codec.refOf (codec.manifestUpload config keyPrefix items elementKind)) :
    manifestBy fetch collection = (do
      visit collection.manifestRef
      return codec.manifestOf config keyPrefix items elementKind) := by
  have hMem : codec.manifestUpload config keyPrefix items elementKind ∈
      (codec.storeCollection config keyPrefix items elementKind).2 := by
    simp [storeCollection]
  have hFetch := hVisits _ _ hMem
  unfold manifestBy
  rw [hRef, manifestUpload, hFetch]
  simp only [bind_assoc, pure_bind]
  rfl

theorem chunkAtBy_stored {index : Nat} (hIndex : index < numChunks config items.length) :
    chunkAtBy fetch (codec.manifestOf config keyPrefix items elementKind) index = (do
      visit (codec.chunkRef config keyPrefix items index)
      return ⟨index * config.chunkSize, chunkItems config items index⟩) := by
  have hMem : codec.chunkUpload config keyPrefix items index ∈
      (codec.storeCollection config keyPrefix items elementKind).2 := by
    rw [storeCollection]
    exact List.mem_append_left _ (List.mem_map_of_mem (List.mem_range.mpr hIndex))
  have hFetch := hVisits _ _ hMem
  have hRef : (codec.manifestOf config keyPrefix items elementKind).chunks[index]? =
      some (codec.chunkRef config keyPrefix items index) := by
    simp [manifestOf, chunkRef, hIndex]
  unfold chunkAtBy
  rw [hRef]
  unfold chunkBy
  dsimp only
  rw [chunkRef, chunkUpload, hFetch]
  simp only [bind_assoc, pure_bind]
  rfl

/-! ## Pages -/

omit [LawfulMonad m] [MonadExceptOf (StorageError Digest) m] hVisits in
theorem chunk_part {offset stop index : Nat} (hStop : stop ≤ items.length)
    (hIndex : index * config.chunkSize < stop) :
    ((chunkItems config items index).take
        (min (chunkItems config items index).length (stop - index * config.chunkSize))).drop
        (offset - index * config.chunkSize) =
      slice (max (index * config.chunkSize) offset)
        (min ((index + 1) * config.chunkSize) stop) items := by
  have hChunk : chunkItems config items index = slice (index * config.chunkSize)
      (min (index * config.chunkSize + config.chunkSize) items.length) items := rfl
  have hLength : (chunkItems config items index).length =
      min (index * config.chunkSize + config.chunkSize) items.length - index * config.chunkSize := by
    rw [chunkItems, List.length_drop, List.length_take]
    omega
  have hSlice : ((chunkItems config items index).take
        (min (chunkItems config items index).length (stop - index * config.chunkSize))).drop
        (offset - index * config.chunkSize) =
      slice (offset - index * config.chunkSize)
        (min (chunkItems config items index).length (stop - index * config.chunkSize))
        (chunkItems config items index) := rfl
  rw [hSlice, hLength, hChunk, slice_slice, Nat.succ_mul]
  congr 1 <;> omega

def pageStop (count offset : Nat) (limit : Option Nat) : Nat :=
  min (offset + limit.getD (count - offset)) count

/-- The chunks of the items of a page. -/
def pageChunks (config : StorageConfig) (count offset : Nat) (limit : Option Nat) : List Nat :=
  if count ≤ offset ∨ limit = some 0 then []
  else
    List.range' (offset / config.chunkSize)
      ((pageStop count offset limit - 1) / config.chunkSize + 1 - offset / config.chunkSize)

omit [Monad m] [LawfulMonad m] [MonadExceptOf (StorageError Digest) m] hVisits in
theorem lt_pageStop {count offset : Nat} {limit : Option Nat}
    (hSome : ¬(count ≤ offset ∨ limit = some 0)) : offset < pageStop count offset limit := by
  obtain ⟨hCount, hLimit⟩ := not_or.mp hSome
  unfold pageStop
  cases limit with
  | none => rw [Option.getD_none]; omega
  | some size =>
      have hSize : size ≠ 0 := fun hZero => hLimit (congrArg some hZero)
      rw [Option.getD_some]
      omega

omit [Monad m] [LawfulMonad m] [MonadExceptOf (StorageError Digest) m] hVisits in
/-- A chunk is one of a page when an item of the page lies in it. -/
theorem mem_pageChunks {count offset index : Nat} {limit : Option Nat} :
    index ∈ pageChunks config count offset limit ↔
      ∃ position, offset ≤ position ∧ position < pageStop count offset limit ∧
        position / config.chunkSize = index := by
  have hSize := config.chunkSize_pos
  unfold pageChunks
  by_cases hEmpty : count ≤ offset ∨ limit = some 0
  · rw [if_pos hEmpty]
    have hStop : pageStop count offset limit ≤ offset := by
      unfold pageStop
      rcases hEmpty with hCount | hLimit
      · omega
      · rw [hLimit, Option.getD_some]
        omega
    simp only [List.not_mem_nil, false_iff, not_exists, not_and]
    intro position hFrom hTo
    omega
  · rw [if_neg hEmpty, List.mem_range'_1]
    have hStop : offset < pageStop count offset limit := lt_pageStop hEmpty
    constructor
    · rintro ⟨hFirst, hLast⟩
      refine ⟨max offset (index * config.chunkSize), Nat.le_max_left _ _, ?_, ?_⟩
      · have hEnd : index ≤ (pageStop count offset limit - 1) / config.chunkSize := by omega
        rw [Nat.le_div_iff_mul_le hSize] at hEnd
        omega
      · have hNext : offset < (index + 1) * config.chunkSize :=
          (Nat.div_lt_iff_lt_mul hSize).mp (by omega)
        have hBetween : index * config.chunkSize < (index + 1) * config.chunkSize :=
          Nat.mul_lt_mul_of_pos_right (Nat.lt_succ_self index) hSize
        exact Nat.div_eq_of_lt_le (Nat.le_max_right _ _) (by omega)
    · rintro ⟨position, hFrom, hTo, rfl⟩
      have hFirst : offset / config.chunkSize ≤ position / config.chunkSize :=
        Nat.div_le_div_right hFrom
      have hLast : position / config.chunkSize ≤
          (pageStop count offset limit - 1) / config.chunkSize :=
        Nat.div_le_div_right (by omega)
      omega

/-- The parts of consecutive chunks, as the loop of a page reads them. -/
theorem parts_stored {offset stop first count : Nat} (hStop : stop ≤ items.length)
    (hLast : (first + count) * config.chunkSize < stop) :
    ((List.range' first (count + 1)).mapM fun chunkIdx => do
        let chunk ← chunkAtBy fetch (codec.manifestOf config keyPrefix items elementKind) chunkIdx
        let chunkStart := chunkIdx * config.chunkSize
        let localStop := min chunk.items.length (stop - chunkStart)
        return (chunk.items.take localStop).drop (offset - chunkStart)) = (do
      ((List.range' first (count + 1)).map (codec.chunkRef config keyPrefix items)).forM visit
      return (List.range' first (count + 1)).map fun index =>
        slice (max (index * config.chunkSize) offset)
          (min ((index + 1) * config.chunkSize) stop) items) := by
  have hVisit : ((List.range' first (count + 1)).map
        (codec.chunkRef config keyPrefix items)).forM visit =
      (List.range' first (count + 1)).forM fun index =>
        visit (codec.chunkRef config keyPrefix items index) := List.forM_map
  rw [hVisit]
  refine mapM_visit fun index hIndex => ?_
  have hBelow : index * config.chunkSize < stop := by
    obtain ⟨-, hEnd⟩ := List.mem_range'_1.mp hIndex
    have hMul : index * config.chunkSize ≤ (first + count) * config.chunkSize :=
      Nat.mul_le_mul_right _ (by omega)
    omega
  have hChunk : index < numChunks config items.length := by
    rw [numChunks_eq (by omega)]
    have hDiv : index ≤ (items.length - 1) / config.chunkSize :=
      (Nat.le_div_iff_mul_le config.chunkSize_pos).mpr (by omega)
    omega
  rw [chunkAtBy_stored hVisits hChunk]
  simp only [bind_assoc, pure_bind]
  rw [chunk_part hStop hBelow]

theorem getCollectionPageBy_stored {collection : CollectionObject Digest}
    (hStored : collection = (codec.storeCollection config keyPrefix items elementKind).1)
    (offset : Nat) (limit : Option Nat) :
    getCollectionPageBy fetch collection offset limit =
      if pageChunks config items.length offset limit = [] then pure []
      else (do
        visit collection.manifestRef
        ((pageChunks config items.length offset limit).map
          (codec.chunkRef config keyPrefix items)).forM visit
        return slice offset (pageStop items.length offset limit) items) := by
  have hSize := config.chunkSize_pos
  have hCount : collection.count = items.length := by rw [hStored]; rfl
  have hWidth : collection.chunkSize = config.chunkSize := by rw [hStored]; rfl
  have hRef : collection.manifestRef =
      codec.refOf (codec.manifestUpload config keyPrefix items elementKind) := by
    rw [hStored]
    rfl
  unfold getCollectionPageBy
  rw [hCount, hWidth]
  by_cases hEmpty : items.length ≤ offset ∨ limit = some 0
  · have hChunks : pageChunks config items.length offset limit = [] := if_pos hEmpty
    rw [if_pos hChunks]
    split
    · rfl
    · rw [if_pos (hEmpty.resolve_left (by assumption))]
  · obtain ⟨hBefore, hZero⟩ := not_or.mp hEmpty
    rw [if_neg hBefore, if_neg hZero]
    have hStop : offset < pageStop items.length offset limit := lt_pageStop hEmpty
    have hLast : pageStop items.length offset limit ≤ items.length := Nat.min_le_right _ _
    have hOrder : offset / config.chunkSize ≤
        (pageStop items.length offset limit - 1) / config.chunkSize :=
      Nat.div_le_div_right (by omega)
    obtain ⟨more, hMore⟩ := Nat.exists_eq_add_of_le hOrder
    have hChunks : pageChunks config items.length offset limit =
        List.range' (offset / config.chunkSize) (more + 1) := by
      unfold pageChunks
      rw [if_neg hEmpty]
      congr 1
      omega
    have hSome : pageChunks config items.length offset limit ≠ [] := by
      rw [hChunks]
      simp
    have hEnd : (offset / config.chunkSize + more) * config.chunkSize <
        pageStop items.length offset limit := by
      have hMul := Nat.div_mul_le_self (pageStop items.length offset limit - 1) config.chunkSize
      rw [hMore] at hMul
      omega
    have hStopEq : min (offset + limit.getD (items.length - offset)) items.length =
        pageStop items.length offset limit := rfl
    have hRange : (pageStop items.length offset limit - 1) / config.chunkSize + 1 -
        offset / config.chunkSize = more + 1 := by omega
    rw [if_neg hSome, manifestBy_stored hVisits hRef, hChunks]
    simp only [hStopEq, hRange, bind_assoc, pure_bind]
    congr 1
    funext _
    rw [parts_stored hVisits hLast hEnd]
    simp only [bind_assoc, pure_bind]
    have hFirst : offset / config.chunkSize * config.chunkSize ≤ offset :=
      Nat.div_mul_le_self offset config.chunkSize
    have hNext : offset < (offset / config.chunkSize + 1) * config.chunkSize :=
      (Nat.div_lt_iff_lt_mul hSize).mp (Nat.lt_succ_self _)
    have hReach : pageStop items.length offset limit ≤
        (offset / config.chunkSize + more + 1) * config.chunkSize := by
      rw [← hMore]
      have hDiv := Nat.lt_div_mul_add (a := pageStop items.length offset limit - 1) hSize
      rw [Nat.succ_mul]
      omega
    rw [flatten_windows items hFirst hNext more hEnd.le, Nat.min_eq_right hReach]

/-! ## Items -/

theorem getCollectionItemBy_stored {collection : CollectionObject Digest}
    (hStored : collection = (codec.storeCollection config keyPrefix items elementKind).1)
    {index : Int} {position : Nat} {item : ChunkItem Value Digest}
    (hPosition : index = position ∨ index = position - items.length)
    (hItem : items[position]? = some item) :
    getCollectionItemBy fetch collection index = (do
      visit collection.manifestRef
      visit (codec.chunkRef config keyPrefix items (position / config.chunkSize))
      elementBy fetch elementKind item) := by
  have hCount : collection.count = items.length := by rw [hStored]; rfl
  have hWidth : collection.chunkSize = config.chunkSize := by rw [hStored]; rfl
  have hKind : collection.elementKind = elementKind := by rw [hStored]; rfl
  have hRef : collection.manifestRef =
      codec.refOf (codec.manifestUpload config keyPrefix items elementKind) := by
    rw [hStored]
    rfl
  have hBelow : position < items.length := (List.getElem?_eq_some_iff.mp hItem).1
  have hNormal : (if index < 0 then (items.length : Int) + index else index) = position := by
    rcases hPosition with hIndex | hIndex <;> split <;> omega
  have hChunk : position / config.chunkSize < numChunks config items.length := by
    apply Nat.div_lt_of_lt_mul
    have hReach : items.length ≤ numChunks config items.length * config.chunkSize :=
      length_le_numChunks_mul (Nat.zero_lt_of_lt hBelow)
    rw [Nat.mul_comm]
    omega
  have hElement : (chunkItems config items (position / config.chunkSize))[position %
      config.chunkSize]? = items[position]? := getElem?_chunkItems hBelow
  unfold getCollectionItemBy
  simp only [hCount, hWidth, hKind, hNormal]
  rw [if_neg (by omega), manifestBy_stored hVisits hRef]
  simp only [Int.toNat_natCast, bind_assoc, pure_bind, chunkAtBy_stored hVisits hChunk, hElement,
    hItem]

omit [LawfulMonad m] hVisits in
theorem getCollectionItemBy_outside {collection : CollectionObject Digest} {index : Int}
    (hOutside : index < -collection.count ∨ collection.count ≤ index) :
    getCollectionItemBy fetch collection index = throw .indexOutOfRange := by
  unfold getCollectionItemBy
  dsimp only
  rw [if_pos]
  rcases hOutside with hBefore | hAfter <;> split <;> omega

end Stored

/-! ## Pages as parts of the list -/

theorem slice_pageStop {α : Type} (items : List α) (offset : Nat) (limit : Option Nat) :
    slice offset (pageStop items.length offset limit) items = pageOf items offset limit := by
  unfold pageStop
  cases limit with
  | none =>
      rw [Option.getD_none]
      exact slice_of_length_le (by omega)
  | some size =>
      rw [Option.getD_some, pageOf, ← slice_add]
      unfold slice
      congr 1
      rw [List.take_eq_take_iff]
      omega

theorem pageOf_of_no_chunk {config : StorageConfig} {α : Type} {items : List α} {offset : Nat}
    {limit : Option Nat}
    (hNone : pageChunks config items.length offset limit = []) : pageOf items offset limit = [] := by
  rw [← slice_pageStop]
  apply slice_of_le
  by_contra hLt
  have hChunk : offset / config.chunkSize ∈ pageChunks config items.length offset limit :=
    mem_pageChunks.mpr ⟨offset, Nat.le_refl _, by omega, rfl⟩
  rw [hNone] at hChunk
  cases hChunk

end BlobCodec
end Tracecat
