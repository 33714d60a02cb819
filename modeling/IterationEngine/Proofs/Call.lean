import IterationEngine.Proofs.Run

/-!
# Calls of function objects

The two ways in which a call goes: its code runs between two changes of the frame (`callFunction_of_canCall`), or
the limit of the depth has been reached and nothing runs (`callFunction_of_limit`).
-/

namespace IterationEngine

variable {H : Type}

/-- A call once it has passed the check of the depth: `frame` is the frame of the call, `back` that of the caller. -/
def runFramed (guest : GuestCode H) (code : Code) (args : List Value) (frame back : Frame) : Run H Value := do
  enterFrame frame
  let result ← runCode guest code args
  leaveFrame back
  return result

/-- The code runs in the frame that has been entered, and what it leaves is left. -/
theorem runFramed_apply (guest : GuestCode H) (code : Code) (args : List Value) (frame back : Frame)
    (m : Machine H) :
    runFramed guest code args frame back m = (do
      let result ← runCode guest code args
      leaveFrame back
      return result : Run H Value) (m.withRealm (enterFrame frame m.realm).2) := rfl

/-- The frame in which a function object runs when it is called with that receiver. -/
def Realm.calleeFrame (r : Realm) (f : ObjectId) (receiver : Value) : Frame where
  receiver := r.context.effectiveReceiver receiver
  active := some f

/-- An object is the receiver that its call sees. -/
theorem Realm.calleeFrame_object (r : Realm) (f id : ObjectId) :
    r.calleeFrame f (.object id) = { receiver := .object id, active := some f } := by
  simp [calleeFrame, Context.effectiveReceiver, Value.isNullish]

theorem callFunction_of_canCall (guest : GuestCode H) (f : ObjectId) (v : Value) (args : List Value)
    {m : Machine H} (hcan : m.realm.context.canCall = true) :
    callFunction guest f v args m =
      runFramed guest ((m.realm.heap.code? f).getD .absent) args (m.realm.calleeFrame f v)
        m.realm.context.frame m := by
  unfold callFunction
  rw [Run.getContext_bind_apply, if_pos hcan, Run.getHeap_bind_apply]
  rfl

theorem callFunction_of_limit (guest : GuestCode H) (f : ObjectId) (v : Value) (args : List Value)
    {m : Machine H} (hcan : ¬ m.realm.context.canCall = true) :
    callFunction guest f v args m =
      some (.undefined, m.withError .rangeError "Maximum call stack size exceeded") := by
  unfold callFunction
  rw [Run.getContext_bind_apply, if_neg hcan]
  rfl

end IterationEngine
