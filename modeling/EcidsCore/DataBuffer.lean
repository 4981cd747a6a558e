import EcidsCore.GuardedRuns
import EcidsCore.PreprocessModule

set_option autoImplicit false

/-! The inspection queue and the latest depth map, and the body of the inspection
loop that reads them. `α` is the type of what is buffered. -/
namespace EcidsCore

structure DataBuffer (α : Type) where
  inspectionQueue : List α := []
  inspectionCapacity : ℕ := 100
  latestDepth : Option α := none

namespace DataBuffer
variable {α : Type}

/-- A full queue drops the newest item. -/
def enqueueInspection (b : DataBuffer α) (x : α) : DataBuffer α :=
  if b.inspectionCapacity ≤ b.inspectionQueue.length then b
  else { b with inspectionQueue := b.inspectionQueue ++ [x] }

def dequeueInspection (b : DataBuffer α) : Option (α × DataBuffer α) :=
  match b.inspectionQueue with
  | [] => none
  | x :: rest => some (x, { b with inspectionQueue := rest })

def clearInspectionQueue (b : DataBuffer α) : DataBuffer α := { b with inspectionQueue := [] }

def enqueueDepth (b : DataBuffer α) (x : α) : DataBuffer α := { b with latestDepth := some x }

theorem mem_enqueueInspection {b : DataBuffer α} {x y : α}
    (h : y ∈ (b.enqueueInspection x).inspectionQueue) : y ∈ b.inspectionQueue ∨ y = x := by
  unfold enqueueInspection at h
  split at h
  · exact .inl h
  · rcases List.mem_append.1 h with h | h
    · exact .inl h
    · exact .inr (List.mem_singleton.1 h)

theorem enqueueInspection_latestDepth (b : DataBuffer α) (x : α) :
    (b.enqueueInspection x).latestDepth = b.latestDepth := by
  unfold enqueueInspection
  split <;> rfl

theorem dequeueInspection_some {b c : DataBuffer α} {x : α}
    (h : b.dequeueInspection = some (x, c)) :
    b.inspectionQueue = x :: c.inspectionQueue ∧ c.latestDepth = b.latestDepth := by
  unfold dequeueInspection at h
  split at h
  · cases h
  · rename_i y rest hq
    cases h
    exact ⟨hq, rfl⟩

theorem dequeueInspection_capacity {b c : DataBuffer α} {x : α}
    (h : b.dequeueInspection = some (x, c)) : c.inspectionCapacity = b.inspectionCapacity := by
  unfold dequeueInspection at h
  split at h
  · cases h
  · cases h
    rfl

end DataBuffer

def splitFrame (frame : DataBundle) : DataBundle × DataBundle :=
  if frame.data.length = 1920 * 2400 * 4 then
    let half := frame.data.length / 2
    ({ frame with data := frame.data.take half }, { frame with data := frame.data.drop half })
  else (frame, {})

/-- Whether the loop passes a frame on: under installation only at the set rate. -/
def passesFrame (sub : InspectionSubTask) (rateOk : Bool) (frame : DataBundle) : Bool :=
  frame.data ≠ [] ∧ (sub = .installation → rateOk)

def usedDepth {α : Type} (data : α → DataBundle) (sub : InspectionSubTask) (b : DataBuffer α) :
    Option α :=
  if sub = .installation then b.latestDepth.filter fun d => (data d).data ≠ [] else none

end EcidsCore
