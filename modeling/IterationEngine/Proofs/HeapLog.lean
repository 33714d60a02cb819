import Mathlib.Data.List.DropRight
import Mathlib.Data.List.Induction
import Mathlib.Order.Bounds.Basic
import IterationEngine.Heap

/-!
# The statistics of a heap

What the statistics of a heap count.

A heap is changed in three ways: an object is registered, or a registration brings none; an object is altered; and
everything is released. A log of these operations says all that the statistics have to agree with: how many objects are
held is how many have been registered since the last release, and how many have been allocated, in what classes of
storage, is read off the whole log, over all releases. The peak is the greatest number that has been held after any part
of the log. So every heap that has come of nothing accounts for its log (`Heap.accounted_operateAll`).
-/

namespace IterationEngine

namespace Heap

/-- What can be done to a heap. -/
inductive Operation where
  | register (o : Option Object)
  | modify (id : ObjectId) (f : Object → Object)
  | release

namespace Operation

/-- The object that is registered, if there is one. -/
def object? : Operation → Option Object
  | register o => o
  | modify .. | release => none

def isRelease : Operation → Bool
  | release => true
  | register _ | modify .. => false

end Operation

/-- The heap after an operation. -/
def operate (h : Heap) : Operation → Heap
  | .register o => (h.register o).2
  | .modify id f => h.modify id f
  | .release => h.release

/-- The heap after the operations of a log. -/
def operateAll (h : Heap) (log : List Operation) : Heap := log.foldl operate h

/-- The objects that are registered in a log. -/
def registered (log : List Operation) : List Object := log.filterMap Operation.object?

/-- The part of a log after its last release. -/
def sinceRelease (log : List Operation) : List Operation := log.rtakeWhile fun op => !op.isRelease

theorem operateAll_append (h : Heap) (log log' : List Operation) :
    h.operateAll (log ++ log') = (h.operateAll log).operateAll log' :=
  List.foldl_append

theorem operateAll_concat (h : Heap) (log : List Operation) (op : Operation) :
    h.operateAll (log ++ [op]) = (h.operateAll log).operate op :=
  h.operateAll_append log [op]

theorem registered_concat (log : List Operation) (op : Operation) :
    registered (log ++ [op]) = registered log ++ op.object?.toList := by
  rw [registered, List.filterMap_append, List.filterMap_cons, List.filterMap_nil]
  cases op.object? <;> rfl

theorem sinceRelease_release (log : List Operation) : sinceRelease (log ++ [.release]) = [] :=
  List.rtakeWhile_concat_neg _ _ _ nofun

theorem sinceRelease_concat (log : List Operation) {op : Operation} (hop : op.isRelease = false) :
    sinceRelease (log ++ [op]) = sinceRelease log ++ [op] :=
  List.rtakeWhile_concat_pos _ _ _ (by rw [hop]; rfl)

/-! ## One operation -/

section Operate

variable (h : Heap)

theorem operate_register_some (o : Object) : h.operate (.register (some o)) = (h.alloc o).2 := rfl

theorem size_operate {op : Operation} (hop : op.isRelease = false) :
    (h.operate op).size = h.size + op.object?.toList.length := by
  cases op with
  | register o =>
    cases o with
    | none => rfl
    | some o => exact h.size_alloc o
  | modify id f => exact h.size_modify id f
  | release => cases hop

theorem operate_size_le (op : Operation) : (h.operate op).size ≤ h.size + op.object?.toList.length := by
  cases hop : op.isRelease with
  | true =>
    cases op with
    | release => exact Nat.zero_le _
    | register | modify => cases hop
  | false => exact Nat.le_of_eq (h.size_operate hop)

/-- The number of allocations is never reset. -/
theorem allocations_operate (op : Operation) :
    (h.operate op).allocations = h.allocations + op.object?.toList.length := by
  cases op with
  | register o => cases o <;> rfl
  | modify | release => rfl

theorem stored_operate (op : Operation) :
    (h.operate op).stored = (op.object?.toList.map fun o => o.kind.storageClass).reverse ++ h.stored := by
  cases op with
  | register o => cases o <;> rfl
  | modify | release => rfl

/-- The peak is never reset either, and is what the number of objects has come to if that is more. -/
theorem peak_operate (hsize : h.size ≤ h.peak) (op : Operation) :
    (h.operate op).peak = max h.peak (h.operate op).size := by
  cases op with
  | register o =>
    cases o with
    | none => exact (Nat.max_eq_left hsize).symm
    | some o =>
      rw [operate_register_some, size_alloc]
      rfl
  | modify id f =>
    rw [operate, size_modify]
    exact (Nat.max_eq_left hsize).symm
  | release => exact (Nat.max_eq_left (Nat.zero_le _)).symm

theorem peak_le_operate (op : Operation) : h.peak ≤ (h.operate op).peak := by
  cases op with
  | register o =>
    cases o with
    | none => exact Nat.le_refl _
    | some o => exact Nat.le_max_left _ _
  | modify | release => exact Nat.le_refl _

end Operate

theorem allocations_operateAll (h : Heap) (log : List Operation) :
    (h.operateAll log).allocations = h.allocations + (registered log).length := by
  induction log using List.reverseRecOn with
  | nil => rfl
  | append_singleton log op ih =>
    rw [operateAll_concat, allocations_operate, ih, registered_concat, List.length_append, Nat.add_assoc]

/-! ## Accounts -/

/-- The statistics of a heap agree with the log of all that has been done to it. -/
structure Accounted (h : Heap) (log : List Operation) : Prop where
  /-- The objects there are have been registered since the last release. -/
  size : h.size = (registered (sinceRelease log)).length
  allocations : h.allocations = (registered log).length
  stored : h.stored = ((registered log).map fun o => o.kind.storageClass).reverse
  /-- The peak is the greatest number of objects that there have been. -/
  peak : IsGreatest {n | ∃ past, past <+: log ∧ n = (empty.operateAll past).size} h.peak
  size_le_peak : h.size ≤ h.peak
  peak_le_allocations : h.peak ≤ h.allocations

namespace Accounted

variable {log : List Operation}

theorem size_concat (h : (empty.operateAll log).Accounted log) (op : Operation) :
    ((empty.operateAll log).operate op).size = (registered (sinceRelease (log ++ [op]))).length := by
  cases hop : op.isRelease with
  | true =>
    cases op with
    | release =>
      rw [sinceRelease_release]
      rfl
    | register | modify => cases hop
  | false =>
    rw [size_operate _ hop, sinceRelease_concat log hop, registered_concat, List.length_append, h.size]

/-- The greatest number of objects so far is the number now, or the greatest one before. -/
theorem peak_concat (h : (empty.operateAll log).Accounted log) (op : Operation) :
    IsGreatest {n | ∃ past, past <+: log ++ [op] ∧ n = (empty.operateAll past).size}
      ((empty.operateAll log).operate op).peak := by
  obtain ⟨⟨past, hpast, hattained⟩, hbound⟩ := h.peak
  rw [peak_operate _ h.size_le_peak, ← operateAll_concat]
  constructor
  · rcases Nat.le_total (empty.operateAll log).peak (empty.operateAll (log ++ [op])).size with hle | hle
    · exact ⟨log ++ [op], List.prefix_rfl, Nat.max_eq_right hle⟩
    · exact ⟨past, hpast.trans (List.prefix_append _ _), (Nat.max_eq_left hle).trans hattained⟩
  · rintro n ⟨past', hpast', rfl⟩
    rcases List.prefix_concat_iff.mp hpast' with rfl | hpast'
    · exact Nat.le_max_right _ _
    · exact (hbound ⟨past', hpast', rfl⟩).trans (Nat.le_max_left _ _)

/-- One more operation. -/
theorem operate (h : (empty.operateAll log).Accounted log) (op : Operation) :
    ((empty.operateAll log).operate op).Accounted (log ++ [op]) := by
  have hallocations : ((empty.operateAll log).operate op).allocations = (registered (log ++ [op])).length := by
    rw [allocations_operate, registered_concat, List.length_append, h.allocations]
  have hpeak := peak_operate _ h.size_le_peak op
  refine ⟨h.size_concat op, hallocations, ?_, h.peak_concat op, ?_, ?_⟩
  · rw [stored_operate, registered_concat, List.map_append, List.reverse_append, h.stored]
  · rw [hpeak]
    exact Nat.le_max_right _ _
  · have hsize := (operate_size_le (empty.operateAll log) op).trans
      (Nat.add_le_add_right (h.size_le_peak.trans h.peak_le_allocations) _)
    rw [hpeak, allocations_operate]
    exact Nat.max_le.mpr ⟨h.peak_le_allocations.trans (Nat.le_add_right _ _), hsize⟩

end Accounted

/-- A heap that has come of nothing accounts for all that has been done to it. -/
theorem accounted_operateAll (log : List Operation) : (empty.operateAll log).Accounted log := by
  induction log using List.reverseRecOn with
  | nil =>
    refine ⟨rfl, rfl, rfl, ⟨⟨[], List.prefix_rfl, rfl⟩, ?_⟩, Nat.le_refl 0, Nat.le_refl 0⟩
    rintro n ⟨past, hpast, rfl⟩
    rw [List.prefix_nil.mp hpast]
    exact Nat.le_refl 0
  | append_singleton log op ih =>
    rw [operateAll_concat]
    exact ih.operate op

end Heap

end IterationEngine
