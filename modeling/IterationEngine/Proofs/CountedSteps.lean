import IterationEngine.Proofs.Draining
import IterationEngine.Proofs.HeapRuns

/-!
# Steps that are counted

A step of a list iterator whose own `next` still holds the function that it was made with registers one object.

That object is the result of the step. It is an error when the limit of the depth has been reached, or when the embedder
has bound another function to the iterator (`Iterator.OwnStep`). The function has the step code for good, whatever is
run, so this holds as long as the iterator keeps its `next`, and of every call of the function at any depth
(`ListIterator.counted_of_history`).
-/

namespace IterationEngine

variable {H : Type}

namespace Iterator

open ListIterator (answered)

/-- How a step goes that calls the step code by `next`: what it answers, and the machine that it leaves. -/
inductive OwnStep (it f : ObjectId) (m : Machine H) : Handle → Machine H → Prop
  | limit : ¬ m.realm.context.canCall = true →
      OwnStep it f m none (m.withError .rangeError "Maximum call stack size exceeded")
  | result {xs : List Value} {i : Nat} : m.realm.context.canCall = true →
      m.realm.heap.listCursor? it = some { list := some xs, index := i, next := some f } →
      OwnStep it f m (if i < xs.length then some ⟨m.realm.heap.size⟩ else none) (m.withRealm (answered m.realm it xs i))
  | refused (refusal : ListIterator.Refusal) : m.realm.context.canCall = true →
      (∀ xs i, m.realm.heap.listCursor? it ≠ some { list := some xs, index := i, next := some f }) →
      OwnStep it f m none (m.withError .typeError refusal.message)

variable {g : Guest H} {guest : GuestCode H} {it f : ObjectId} {m m' : Machine H} {answer : Handle} {a : Attributes}

/-- Each way registers one object. -/
theorem OwnStep.gains (h : OwnStep it f m answer m') : m.realm.heap.Gains m'.realm.heap := by
  cases h with
  | limit | refused => exact m.realm.heap.gains_alloc _
  | result => exact ListIterator.gains_stepped _ _

/-- A step answers nothing if the call of the method fails. -/
theorem step_of_failed {v e : Value} (hinvoke : Access.invoke g (.ofHandle (some it)) "next" [] m = some (v, m'))
    (hp' : m'.pending = some e) : step g (some it) m = some (none, m') := by
  have hnext : next g (some it) none m = some (none, m') := by
    rw [next, Option.toList_none, Run.bind_eq_of_eq_some hinvoke, Run.ifPending_of_pending hp']
    rfl
  rw [step, Run.bind_eq_of_eq_some hnext]
  rfl

/-- A step with an own `next` that has the step code, whoever made the iterator. -/
theorem exists_ownStep (hg : g.call = callFunction guest) (hcode : m.realm.heap.code? f = some (.builtin .listNext))
    (hown : m.realm.heap.ownProperty? "next" it = some (.data (.object f) a)) (hp : m.pending = none) :
    ∃ answer m', step g (some it) m = some (answer, m') ∧ OwnStep it f m answer m' := by
  have hinvoke : Access.invoke g (.ofHandle (some it)) "next" [] m = callFunction guest f (.object it) [] m := by
    rw [← hg]
    exact Access.invoke_of_own g hown (Heap.isFunction_of_code? hcode) hp []
  by_cases hcan : m.realm.context.canCall = true
  · by_cases hbound : ∃ xs i, m.realm.heap.listCursor? it = some { list := some xs, index := i, next := some f }
    · obtain ⟨xs, i, hcursor⟩ := hbound
      have hstep := step_of_result (hinvoke.trans (ListIterator.callFunction_of_cursor hcan hcode hcursor guest [])) hp
        (ownProperty?_answered_done m.realm it xs i)
      have hanswer : (if xs[i]?.isNone then none else some ⟨m.realm.heap.size⟩ : Handle) =
          if i < xs.length then some ⟨m.realm.heap.size⟩ else none := by
        by_cases hi : i < xs.length
        · rw [List.getElem?_eq_getElem hi, if_pos hi]
          rfl
        · rw [List.getElem?_eq_none (Nat.le_of_not_lt hi), if_neg hi]
          rfl
      exact ⟨_, _, hanswer ▸ hstep, .result hcan hcursor⟩
    · have hcall := callFunction_listNext guest f (.object it) [] m hcan hcode
      cases hpermitted : ListIterator.permitted m.realm.heap (m.realm.calleeFrame f (.object it)) with
      | error refusal =>
        rw [hpermitted] at hcall
        exact ⟨_, _, step_of_failed (hinvoke.trans hcall) rfl, .refused refusal hcan fun xs i h => hbound ⟨xs, i, h⟩⟩
      | ok permission =>
        obtain ⟨it', xs, i⟩ := permission
        obtain ⟨hreceiver, hcursor⟩ := ListIterator.permitted_eq_ok hpermitted
        rw [Realm.calleeFrame_object] at hreceiver hcursor
        obtain rfl := Value.object.inj hreceiver
        exact absurd ⟨xs, i, hcursor⟩ hbound
  · have hlimit := callFunction_of_limit guest f (.object it) [] hcan
    exact ⟨_, _, step_of_failed (hinvoke.trans hlimit) rfl, .limit hcan⟩

end Iterator

/-! ## Iterators that have been made -/

namespace ListIterator

variable {S : Type}

/-- What holds of the list iterator `it`, which was made over `xs` with the function `f` and left in the heap `h₀`, on
account of the events `post` that have followed and on the machine `m` that they have led to. -/
structure Counted (it f : ObjectId) (xs : List Value) (h₀ : Heap) (post : Journal) (m : Machine (Embedder S)) :
    Prop where
  made : Made h₀ it f xs
  now : h₀.Becomes m.realm.heap
  always : ∀ ev ∈ post, h₀.Becomes ev.heap
  bound : (∀ ev ∈ post, ev.rebinds it = false) →
    ∃ i, m.realm.heap.listCursor? it = some { list := some xs, index := i, next := some f }
  /-- Each call of the function, at any depth, has registered one object. -/
  calls : ∀ c, .called c ∈ post → c.function = f → c.before.heap.Gains c.after.heap
  /-- A step registers one on any machine with a heap that has become of `h₀`, while `next` of the iterator is still that
  function. -/
  step : ∀ {H : Type} (g : Guest H) guest a (n : Machine H), g.call = callFunction guest → h₀.Becomes n.realm.heap →
    n.realm.heap.ownProperty? "next" it = some (.data (.object f) a) → n.pending = none →
    ∃ answer n', Iterator.step g (some it) n = some (answer, n') ∧ Iterator.OwnStep it f n answer n' ∧
      n.realm.heap.Gains n'.realm.heap

theorem counted_of_history {m : Machine (Embedder S)} {j pre post : Journal} {xs : List Value} {it : ObjectId}
    {h₀ : Heap} (h : History m j) (hj : j = pre ++ .performed (.createListIterator xs) it h₀ :: post) :
    ∃ f, Counted it f xs h₀ post m := by
  obtain ⟨_, hchronicle⟩ := h.exists_chronicle
  have hmem : ∀ ev ∈ .performed (.createListIterator xs) it h₀ :: post, ev ∈ j := by
    intro ev hev
    rw [hj]
    exact List.mem_append_right _ hev
  obtain ⟨-, hnow, f, hmade⟩ := hchronicle.events _ (hmem _ List.mem_cons_self)
  have hlater : ∀ ev ∈ post, h₀.Becomes ev.heap := by
    have horder := hchronicle.order
    change j.Pairwise _ at horder
    rw [hj] at horder
    exact (List.pairwise_cons.mp (List.pairwise_append.mp horder).2.1).1
  refine ⟨f, hmade, hnow, hlater, ?_, ?_, ?_⟩
  · intro hpost
    obtain ⟨f', hserves⟩ := (accounts_of_history h).serves hj hpost
    obtain ⟨⟩ := hmade.cursor.symm.trans hserves.created
    exact ⟨_, hserves.now⟩
  · rintro c hc rfl
    have hcounted := (hchronicle.events _ (hmem _ (List.mem_cons_of_mem _ hc))).2.2
    exact hcounted ((hlater _ hc).code c.function _ hmade.code)
  · intro H g guest a n hg hbecomes hown hp
    obtain ⟨answer, n', hstep, hstepped⟩ := Iterator.exists_ownStep hg (hbecomes.code f _ hmade.code) hown hp
    exact ⟨answer, n', hstep, hstepped, hstepped.gains⟩

end ListIterator

end IterationEngine
