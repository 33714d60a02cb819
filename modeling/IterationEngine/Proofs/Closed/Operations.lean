import IterationEngine.Proofs.Closed.Commands
import IterationEngine.Proofs.ListIterator

/-!
# Operations on closed machines

The operations that read properties and call functions, on machines with a journal.

A machine is sound if its realm is closed, if everything that its journal tells was so when it happened, and if no heap
has lost an object since (`Machine.Sound`). `Run.KeepsClosed` is for runs what `Realm.KeepsClosed` is for actions. The
operations are gone through one by one, given that calls of function objects are known; there is nothing to show of
them but that all they hand on is live.
-/

namespace IterationEngine

variable {H α β : Type}

/-! ## Sound machines -/

/-- What the event has bound to a list iterator, if it has bound anything, is a function. -/
def Event.bindsFunction : Event → Bool
  | performed (.bindNext _ (some f)) _ heap => heap.isFunction f
  | _ => true

/-- Nothing but functions has been bound to list iterators. -/
def Journal.BindsFunctions (j : Journal) : Prop := ∀ ev ∈ j, ev.bindsFunction = true

theorem Journal.BindsFunctions.of_isPrefix {j j' : Journal} (hj' : j'.BindsFunctions) (h : j <+: j') :
    j.BindsFunctions :=
  fun ev hev => hj' ev (h.subset hev)

/-- The realms and heaps of the event are closed, and what is passed on and answered is live. -/
def Event.Sound (bound : Prop) : Event → Prop
  | called c =>
    c.before.Closed bound ∧ c.after.Closed bound ∧ c.before.heap.Grows c.after.heap ∧
      c.before.heap.Holds (.object c.function :: c.receiver :: c.args) ∧ c.after.heap.Holds [c.result]
  | ranBody v before completion after =>
    before.Closed bound ∧ after.Closed bound ∧ before.heap.Grows after.heap ∧
      before.heap.Holds [v] ∧ after.heap.Holds [completion.value]
  | performed command reply heap =>
    heap.Closed bound ∧ heap.Holds command.operands ∧ heap.Holds (command.replyValues reply)

theorem Event.Sound.weaken {bound bound' : Prop} {ev : Event} (hev : ev.Sound bound) (hb : bound' → bound) :
    ev.Sound bound' := by
  cases ev with
  | called c =>
    obtain ⟨hbefore, hafter, hrest⟩ := hev
    exact ⟨hbefore.weaken hb, hafter.weaken hb, hrest⟩
  | ranBody v before completion after =>
    obtain ⟨hbefore, hafter, hrest⟩ := hev
    exact ⟨hbefore.weaken hb, hafter.weaken hb, hrest⟩
  | performed command reply heap =>
    obtain ⟨hheap, hrest⟩ := hev
    exact ⟨hheap.weaken hb, hrest⟩

/-- The realm is closed, and so was all that the journal tells of. The heaps that it tells of have grown into one
another and into the one of the machine. -/
structure Machine.Sound (n : Machine (H × Journal)) : Prop where
  realm : n.realm.Closed n.journal.BindsFunctions
  events : ∀ ev ∈ n.journal, ev.Sound n.journal.BindsFunctions
  heaps : (n.journal.map Event.heap ++ [n.realm.heap]).Pairwise Heap.Grows

namespace Machine.Sound

variable {n : Machine (H × Journal)}

/-- The heap at the end of a list of heaps may be replaced by what becomes of it. -/
theorem pairwise_grown {hs : List Heap} {h h' : Heap} (hhs : (hs ++ [h]).Pairwise Heap.Grows) (hh : h.Grows h') :
    (hs ++ [h']).Pairwise Heap.Grows := by
  rw [List.pairwise_append] at hhs ⊢
  obtain ⟨hpast, -, hnow⟩ := hhs
  refine ⟨hpast, List.pairwise_singleton _ _, fun a ha b hb => ?_⟩
  obtain rfl := List.mem_singleton.mp hb
  exact (hnow a ha h List.mem_cons_self).trans hh

theorem withRealm (hn : n.Sound) {r : Realm} (hr : r.Closed n.journal.BindsFunctions)
    (hgrows : n.realm.heap.Grows r.heap) : (n.withRealm r).Sound where
  realm := hr
  events := hn.events
  heaps := pairwise_grown hn.heaps hgrows

/-- A change of the realm, and a note of it. That the realm is closed is asked for under the condition that the event
has become part of. -/
theorem noting (hn : n.Sound) {r : Realm} {ev : Event} (hgrows : n.realm.heap.Grows r.heap) (hheap : ev.heap = r.heap)
    (hr : r.Closed (n.journal ++ [ev]).BindsFunctions) (hev : ev.Sound (n.journal ++ [ev]).BindsFunctions) :
    ((n.withRealm r).noting ev).Sound where
  realm := hr
  events := by
    intro e he
    rcases List.mem_append.mp he with hold | hnew
    · exact (hn.events e hold).weaken fun hb => hb.of_isPrefix (List.prefix_append _ _)
    · obtain rfl := List.mem_singleton.mp hnew
      exact hev
  heaps := by
    show ((n.journal ++ [ev]).map Event.heap ++ [r.heap]).Pairwise Heap.Grows
    have hpast := pairwise_grown hn.heaps hgrows
    rw [List.map_append, List.map_singleton, hheap, List.pairwise_append]
    refine ⟨hpast, List.pairwise_singleton _ _, fun a ha b hb => ?_⟩
    obtain rfl := List.mem_singleton.mp hb
    rcases List.mem_append.mp ha with hold | hlast
    · exact (List.pairwise_append.mp hpast).2.2 a hold _ List.mem_cons_self
    · obtain rfl := List.mem_singleton.mp hlast
      exact .refl _

end Machine.Sound

/-! ## Runs -/

theorem Run.requireLive_eq_some {vs : List Value} {m m' : Machine H} {a : Unit}
    (h : Run.requireLive vs m = some (a, m')) : m.realm.heap.Holds vs ∧ m = m' := by
  unfold Run.requireLive at h
  split at h
  · next hlive => exact ⟨Heap.all_contains_iff.mp hlive, (Prod.mk.inj (Option.some.inj h)).2⟩
  · cases h

/-- If the run answers, from a sound machine whose heap has grown from `h₀`, it leads to another one, and `post` holds
of the answer and the heap it leaves. -/
def Run.KeepsClosed (h₀ : Heap) (post : α → Heap → Prop) (x : Run (H × Journal) α) : Prop :=
  ∀ n a n', n.Sound → h₀.Grows n.realm.heap → x n = some (a, n') →
    n'.Sound ∧ n.realm.heap.Grows n'.realm.heap ∧ n.journal <+: n'.journal ∧ post a n'.realm.heap

/-- The calls of function objects, given live values, answer live values. -/
def Guest.KeepsClosed (g : Guest (H × Journal)) : Prop :=
  ∀ h₀ f v args, h₀.Holds (.object f :: v :: args) →
    Run.KeepsClosed h₀ (Heap.holding fun result => [result]) (g.call f v args)

namespace Run.KeepsClosed

open Heap (holding)

variable {h₀ : Heap} {post : α → Heap → Prop} {post' : β → Heap → Prop}

theorem diverge : KeepsClosed h₀ post (Run.diverge : Run (H × Journal) α) := by
  intro n a n' _ _ h
  cases h

theorem pure {out : α → List Value} {a : α} (ha : h₀.Holds (out a)) :
    KeepsClosed h₀ (holding out) (Pure.pure a : Run (H × Journal) α) := by
  intro n b n' hn hgrows h
  obtain ⟨rfl, rfl⟩ := Run.pure_eq_some h
  exact ⟨hn, .refl _, List.prefix_rfl, ha.mono hgrows⟩

theorem bind {x : Run (H × Journal) α} {f : α → Run (H × Journal) β} (hx : KeepsClosed h₀ post x)
    (hf : ∀ a h, h₀.Grows h → post a h → KeepsClosed h post' (f a)) : KeepsClosed h₀ post' (x >>= f) := by
  intro n b n' hn hgrows h
  obtain ⟨a, n₁, hx', hf'⟩ := Run.bind_eq_some.mp h
  obtain ⟨hn₁, hgrows₁, hj₁, ha⟩ := hx n a n₁ hn hgrows hx'
  obtain ⟨hn', hgrows', hj', hb⟩ := hf a _ (hgrows.trans hgrows₁) ha n₁ b n' hn₁ (.refl _) hf'
  exact ⟨hn', hgrows₁.trans hgrows', hj₁.trans hj', hb⟩

/-- Actions take part in runs. -/
theorem lift {x : Action α} (hx : Realm.KeepsClosed h₀ post x) :
    KeepsClosed h₀ post (liftM x : Run (H × Journal) α) := by
  intro n a n' hn hgrows h
  obtain ⟨rfl, rfl⟩ := Run.lift_eq_some h
  obtain ⟨hclosed, hgrows', ha⟩ := hx _ n.realm hn.realm hgrows
  exact ⟨hn.withRealm hclosed hgrows', hgrows', List.prefix_rfl, ha⟩

theorem weaken {post' : α → Heap → Prop} {x : Run (H × Journal) α} (hx : KeepsClosed h₀ post x)
    (hpost : ∀ a h, h₀.Grows h → post a h → post' a h) : KeepsClosed h₀ post' x := by
  intro n a n' hn hgrows h
  obtain ⟨hn', hgrows', hj', ha⟩ := hx n a n' hn hgrows h
  exact ⟨hn', hgrows', hj', hpost a _ (hgrows.trans hgrows') ha⟩

/-- An action before an answer that was known to be live. -/
theorem andPure {out : β → List Value} {x : Action α} {b : β} (hx : Realm.KeepsClosed h₀ post x)
    (hb : h₀.Holds (out b)) : KeepsClosed h₀ (holding out) (do let _ ← liftM x; return b : Run (H × Journal) β) :=
  (lift hx).bind fun _ _ hgrows _ => pure (hb.mono hgrows)

/-- Where an operation looks for an exception. -/
theorem ifPending {x y : Run (H × Journal) α} (hx : ∀ h, h₀.Grows h → KeepsClosed h post x)
    (hy : ∀ h, h₀.Grows h → KeepsClosed h post y) :
    KeepsClosed h₀ post (do if ← Realm.isPending then x else y : Run (H × Journal) α) := by
  refine (lift .isPending).bind fun pending h hgrows _ => ?_
  split
  · exact hx h hgrows
  · exact hy h hgrows

/-- After the check of some values it is known that these are live. -/
theorem requireLive (vs : List Value) :
    KeepsClosed h₀ (fun _ h => h.Holds vs) (Run.requireLive vs : Run (H × Journal) Unit) := by
  intro n _ n' hn _ h
  obtain ⟨hlive, rfl⟩ := Run.requireLive_eq_some h
  exact ⟨hn, .refl _, List.prefix_rfl, hlive⟩

/-- A run with a note of it, which tells what is known of the run. -/
theorem noted {event : Realm → α → Realm → Event} {x : Run (H × Journal) α} (hx : KeepsClosed h₀ post x)
    (hheap : ∀ r a r', (event r a r').heap = r'.heap)
    (hevent : ∀ bound r a r', r.Closed bound → r'.Closed bound → h₀.Grows r.heap → r.heap.Grows r'.heap →
      post a r'.heap → (event r a r').Sound bound) :
    KeepsClosed h₀ post (Run.noted event x) := by
  intro n a n' hn hgrows h
  obtain ⟨⟨b, n₁⟩, hx', hb⟩ := Option.map_eq_some_iff.mp h
  obtain ⟨rfl, rfl⟩ := Prod.mk.inj hb
  obtain ⟨hn₁, hgrows₁, hj₁, ha⟩ := hx n b n₁ hn hgrows hx'
  refine ⟨?_, hgrows₁, hj₁.trans (List.prefix_append _ _), ha⟩
  have hlater : (n₁.journal ++ [event n.realm b n₁.realm]).BindsFunctions → n₁.journal.BindsFunctions :=
    fun hbound => hbound.of_isPrefix (List.prefix_append _ _)
  have hbefore := hn.realm.weaken fun hbound => (hlater hbound).of_isPrefix hj₁
  have hafter := hn₁.realm.weaken hlater
  exact hn₁.noting (r := n₁.realm) (.refl _) (hheap _ _ _) hafter
    (hevent _ n.realm b n₁.realm hbefore hafter hgrows hgrows₁ ha)

end Run.KeepsClosed

/-! ## Operations -/

namespace Guest.KeepsClosed

open Heap (holding)
open Run.KeepsClosed

variable {g : Guest (H × Journal)} {h₀ : Heap}

/-! ### Access -/

theorem get (hg : g.KeepsClosed) {receiver : Value} (hreceiver : receiver.LiveIn h₀) (id : ObjectId) (key : String) :
    Run.KeepsClosed h₀ (holding fun v => [v]) (Access.get g id key receiver) := by
  refine (lift .getHeap).bind fun heap h hgrows hheap => ?_
  obtain ⟨rfl, hh⟩ := hheap
  split
  · next hlookup => exact pure (Heap.holds_lookup hh hlookup)
  · next getter _ _ hlookup =>
    split
    · have hgetter := (Heap.holds_lookup hh hlookup).head
      exact hg _ getter receiver [] (Heap.holds_cons.mpr ⟨hgetter, .singleton (hreceiver.mono hgrows)⟩)
    · exact pure (Heap.holds_undefined _)
  · exact pure (Heap.holds_undefined _)

theorem getFrom (hg : g.KeepsClosed) {object : Handle} (hobject : h₀.Holds [.ofHandle object]) (key : String) :
    Run.KeepsClosed h₀ (holding fun v => [v]) (Access.getFrom g object key) := by
  cases object with
  | some id => exact hg.get hobject.head id key
  | none => exact andPure (.raiseTypeError _) (Heap.holds_undefined h₀)

theorem getV (hg : g.KeepsClosed) {v : Value} (hv : v.LiveIn h₀) (key : String) :
    Run.KeepsClosed h₀ (holding fun v => [v]) (Access.getV g v key) := by
  cases v with
  | undefined | null =>
    exact (lift (.textOf _)).bind fun _ _ _ _ => andPure (.raiseTypeError _) (Heap.holds_undefined _)
  | object id => exact hg.get hv id key
  | boolean | number | string | symbol => exact pure (Heap.holds_undefined h₀)

/-- The function that a live value is. -/
theorem holds_function {h : Heap} {v : Value} {f : ObjectId} (hv : v.LiveIn h) (hf : h.function? v = some f) :
    h.Holds [.object f] := by
  obtain ⟨rfl, -⟩ := Heap.function?_eq_some.mp hf
  exact .singleton hv

theorem getMethod (hg : g.KeepsClosed) {v : Value} (hv : v.LiveIn h₀) (key : String) :
    Run.KeepsClosed h₀ (holding fun f => [.ofHandle f]) (Access.getMethod g v key) := by
  refine (hg.getV hv key).bind fun method h₁ _ hmethod => ?_
  refine ifPending (fun h₂ _ => pure (Heap.holds_undefined h₂)) fun h₂ hgrows₂ => ?_
  split
  · exact pure (Heap.holds_undefined h₂)
  refine (lift .getHeap).bind fun heap h₃ hgrows₃ hheap => ?_
  obtain ⟨rfl, -⟩ := hheap
  split
  · next hf => exact pure (holds_function ((hmethod.mono hgrows₂).mono hgrows₃).head hf)
  · exact andPure (.raiseNotCallable _ _) (Heap.holds_undefined _)

theorem callValue (hg : g.KeepsClosed) {callable receiver : Value} {args : List Value}
    (hvs : h₀.Holds (callable :: receiver :: args)) :
    Run.KeepsClosed h₀ (holding fun v => [v]) (Access.call g callable receiver args) := by
  refine (lift .getHeap).bind fun heap h hgrows hheap => ?_
  obtain ⟨rfl, -⟩ := hheap
  split
  · next f hf =>
    have hvs := hvs.mono hgrows
    exact hg _ f receiver args ((holds_function hvs.head hf).append hvs.tail)
  · exact (lift (.textOf _)).bind fun _ _ _ _ => andPure (.raiseTypeError _) (Heap.holds_undefined _)

theorem invoke (hg : g.KeepsClosed) {v : Value} {args : List Value} (hvs : h₀.Holds (v :: args)) (key : String) :
    Run.KeepsClosed h₀ (holding fun v => [v]) (Access.invoke g v key args) := by
  refine (hg.getV hvs.head key).bind fun method h₁ hgrows₁ hmethod => ?_
  refine ifPending (fun h₂ _ => pure (Heap.holds_undefined h₂)) fun h₂ hgrows₂ => ?_
  refine (lift .getHeap).bind fun heap h₃ hgrows₃ hheap => ?_
  obtain ⟨rfl, -⟩ := hheap
  split
  · next f hf =>
    have hfunction := holds_function ((hmethod.mono hgrows₂).mono hgrows₃).head hf
    exact hg _ f v args (hfunction.append (((hvs.mono hgrows₁).mono hgrows₂).mono hgrows₃))
  · exact andPure (.raiseNotCallable _ _) (Heap.holds_undefined _)

/-! ### The protocol -/

theorem ofMethod (hg : g.KeepsClosed) {v method : Value} (hvs : h₀.Holds [v, method]) :
    Run.KeepsClosed h₀ (holding fun it => [.ofHandle it]) (Iterator.ofMethod g v method) := by
  have hcall : h₀.Holds [method, v] := hvs.tail.append (.singleton hvs.head)
  refine (hg.callValue hcall).bind fun iterator h₁ _ hiterator => ?_
  refine ifPending (fun h₂ _ => pure (Heap.holds_undefined h₂)) fun h₂ hgrows₂ => ?_
  split
  · exact pure (hiterator.mono hgrows₂)
  · exact andPure (.raiseTypeError _) (Heap.holds_undefined _)

theorem of (hg : g.KeepsClosed) {v : Value} (hv : v.LiveIn h₀) :
    Run.KeepsClosed h₀ (holding fun it => [.ofHandle it]) (Iterator.of g v) := by
  refine (lift .getContext).bind fun context h₁ hgrows₁ _ => ?_
  have hv := hv.mono hgrows₁
  refine (hg.getMethod hv _).bind fun method h₂ hgrows₂ hmethod => ?_
  refine ifPending (fun h₃ _ => pure (Heap.holds_undefined h₃)) fun h₃ hgrows₃ => ?_
  split
  · exact hg.ofMethod (Heap.holds_cons.mpr ⟨(hv.mono hgrows₂).mono hgrows₃, hmethod.mono hgrows₃⟩)
  · exact (lift (.textOf _)).bind fun _ _ _ _ => andPure (.raiseTypeError _) (Heap.holds_undefined _)

theorem next (hg : g.KeepsClosed) {iterator : Handle} {argument : Option Value}
    (hvs : h₀.Holds (.ofHandle iterator :: argument.toList)) :
    Run.KeepsClosed h₀ (holding fun result => [.ofHandle result]) (Iterator.next g iterator argument) := by
  refine (hg.invoke hvs _).bind fun result h₁ _ hresult => ?_
  refine ifPending (fun h₂ _ => pure (Heap.holds_undefined h₂)) fun h₂ hgrows₂ => ?_
  split
  · exact pure (hresult.mono hgrows₂)
  · exact andPure (.raiseNotResult _) (Heap.holds_undefined _)

theorem isDone (hg : g.KeepsClosed) {result : ObjectId} (hresult : h₀.Holds [.object result]) :
    Run.KeepsClosed h₀ (holding fun _ => []) (Iterator.isDone g result) :=
  (hg.getFrom hresult _).bind fun _ _ _ _ =>
    ifPending (fun h _ => pure (Heap.holds_nil h)) fun h _ => pure (Heap.holds_nil h)

theorem value (hg : g.KeepsClosed) {result : ObjectId} (hresult : h₀.Holds [.object result]) :
    Run.KeepsClosed h₀ (holding fun v => [v]) (Iterator.value g result) :=
  hg.getFrom hresult _

theorem step (hg : g.KeepsClosed) {iterator : Handle} (hiterator : h₀.Holds [.ofHandle iterator]) :
    Run.KeepsClosed h₀ (holding fun result => [.ofHandle result]) (Iterator.step g iterator) := by
  have hnext : h₀.Holds (.ofHandle iterator :: (none : Option Value).toList) := hiterator
  refine (hg.next hnext).bind fun result h₁ _ hresult => ?_
  cases result with
  | none => exact pure (Heap.holds_undefined h₁)
  | some result =>
    refine (hg.isDone hresult).bind fun done h₂ hgrows₂ _ => ?_
    refine ifPending (fun h₃ _ => pure (Heap.holds_undefined h₃)) fun h₃ hgrows₃ => ?_
    split
    · exact pure (Heap.holds_undefined h₃)
    · exact pure ((hresult.mono hgrows₂).mono hgrows₃)

theorem isIterable (hg : g.KeepsClosed) {v : Value} (hv : v.LiveIn h₀) :
    Run.KeepsClosed h₀ (holding fun _ => []) (Iterator.isIterable g v) := by
  unfold Iterator.isIterable
  split
  · refine (lift .getContext).bind fun context h₁ hgrows₁ _ => ?_
    refine (hg.getV (hv.mono hgrows₁) _).bind fun method h₂ _ _ => ?_
    refine ifPending (fun h₃ _ => pure (Heap.holds_nil h₃)) fun h₃ _ => ?_
    exact (lift .getHeap).bind fun _ h _ _ => pure (Heap.holds_nil h)
  · exact pure (Heap.holds_nil h₀)

theorem closeWith (hg : g.KeepsClosed) {iterator : Handle} {c : Completion}
    (hvs : h₀.Holds [.ofHandle iterator, c.value]) :
    Run.KeepsClosed h₀ (holding fun c => [c.value]) (Iterator.closeWith g iterator c) := by
  refine (hg.getMethod hvs.head _).bind fun method h₁ hgrows₁ hmethod => ?_
  refine ifPending (fun h₂ _ => lift .takePending) fun h₂ hgrows₂ => ?_
  have hvs := (hvs.mono hgrows₁).mono hgrows₂
  split
  · exact pure hvs.tail
  · next f =>
    have hcall : h₂.Holds [.object f, .ofHandle iterator] := (hmethod.mono hgrows₂).append (.singleton hvs.head)
    refine (hg h₂ f _ [] hcall).bind fun result h₃ hgrows₃ hresult => ?_
    refine (lift (.outcome hresult.head)).bind fun inner h₄ hgrows₄ hinner => ?_
    split
    · exact pure ((hvs.tail.mono hgrows₃).mono hgrows₄)
    · exact pure hinner
    · exact (lift (.raiseNotResult _)).bind fun _ _ _ _ => lift .takePending

theorem close (hg : g.KeepsClosed) {iterator : Handle} {c : Completion}
    (hvs : h₀.Holds [.ofHandle iterator, c.value]) :
    Run.KeepsClosed h₀ (holding fun c => [c.value]) (Iterator.close g iterator c) := by
  refine ifPending (fun h₁ hgrows₁ => ?_) fun h₁ hgrows₁ => hg.closeWith (hvs.mono hgrows₁)
  refine (lift .takePending).bind fun pending h₂ hgrows₂ hpending => hg.closeWith ?_
  exact Heap.holds_cons.mpr ⟨((hvs.mono hgrows₁).mono hgrows₂).head, hpending⟩

end Guest.KeepsClosed

/-! ### Consumers -/

/-- The value of an item. -/
def Iterator.Item.values : Iterator.Item → List Value
  | value v => [v]
  | exhausted | failed => []

namespace Guest.KeepsClosed

open Heap (holding)
open Run.KeepsClosed

variable {g : Guest (H × Journal)} {h₀ : Heap}

theorem item (hg : g.KeepsClosed) {iterator : ObjectId} (hiterator : h₀.Holds [.object iterator]) :
    Run.KeepsClosed h₀ (holding Iterator.Item.values) (Iterator.item g iterator) := by
  have hstep : h₀.Holds [.ofHandle (some iterator)] := hiterator
  refine (hg.step hstep).bind fun result h₁ _ hresult => ?_
  refine ifPending (fun h₂ _ => pure (Heap.holds_nil h₂)) fun h₂ hgrows₂ => ?_
  cases result with
  | none => exact pure (Heap.holds_nil h₂)
  | some r =>
    refine (hg.value (hresult.mono hgrows₂)).bind fun v h₃ _ hv => ?_
    exact ifPending (fun h₄ _ => pure (Heap.holds_nil h₄)) fun h₄ hgrows₄ => pure (hv.mono hgrows₄)

theorem drain (hg : g.KeepsClosed) (rounds : Nat) {iterator : ObjectId} {taken : Array Value}
    (hiterator : h₀.Holds [.object iterator]) (htaken : h₀.Holds taken.toList) :
    Run.KeepsClosed h₀ (holding id) (Iterator.drain g rounds iterator taken) := by
  induction rounds generalizing h₀ taken with
  | zero => exact diverge
  | succ rounds ih =>
    refine (hg.item hiterator).bind fun item h hgrows hitem => ?_
    cases item with
    | failed => exact pure (Heap.holds_nil h)
    | exhausted => exact pure (htaken.mono hgrows)
    | value v =>
      refine ih (hiterator.mono hgrows) ?_
      rw [Array.toList_push]
      exact (htaken.mono hgrows).append hitem

theorem toList (hg : g.KeepsClosed) {v : Value} {method : Option Value} (hvs : h₀.Holds (v :: method.toList)) :
    Run.KeepsClosed h₀ (holding id) (Iterator.toList g v method) := by
  have hiterator : Run.KeepsClosed h₀ (holding fun it => [.ofHandle it])
      (method.elim (Iterator.of g v) (Iterator.ofMethod g v)) := by
    cases method with
    | none => exact hg.of hvs.head
    | some method => exact hg.ofMethod hvs
  rw [Iterator.toList_eq]
  refine hiterator.bind fun iterator h _ hiterator => ?_
  cases iterator with
  | none => exact pure (Heap.holds_nil h)
  | some id => exact hg.drain g.rounds hiterator (Heap.holds_nil h)

theorem leaveLoop (hg : g.KeepsClosed) {iterator : ObjectId} {last : Value} {c : Completion}
    (hvs : h₀.Holds [.ofHandle (some iterator), c.value]) (hlast : last.LiveIn h₀) :
    Run.KeepsClosed h₀ (holding fun c => [c.value]) (Iterator.leaveLoop g iterator last c) := by
  refine (hg.close hvs).bind fun closed h hgrows hclosed => ?_
  split
  · exact pure (.singleton (hlast.mono hgrows))
  · exact pure hclosed

section Loops

variable {body : Value → Run (H × Journal) Completion}

theorem loop (hg : g.KeepsClosed)
    (hbody : ∀ h v, h.Holds [v] → Run.KeepsClosed h (holding fun c => [c.value]) (body v)) (rounds : Nat)
    {iterator : ObjectId} {last : Value} (hvs : h₀.Holds [.object iterator, last]) :
    Run.KeepsClosed h₀ (holding fun c => [c.value]) (Iterator.loop g body rounds iterator last) := by
  induction rounds generalizing h₀ last with
  | zero => exact diverge
  | succ rounds ih =>
    refine (hg.item (.singleton hvs.head)).bind fun item h₁ hgrows₁ hitem => ?_
    have hvs := hvs.mono hgrows₁
    cases item with
    | failed => exact lift .takePending
    | exhausted => exact pure hvs.tail
    | value v =>
      refine (hbody h₁ v hitem).bind fun c h₂ hgrows₂ hc => ?_
      refine (lift (.bodyOutcome hc)).bind fun result h₃ hgrows₃ hresult => ?_
      have hvs := (hvs.mono hgrows₂).mono hgrows₃
      split
      · exact ih (Heap.holds_cons.mpr ⟨hvs.head, hresult⟩)
      · exact ih hvs
      · exact hg.leaveLoop (Heap.holds_cons.mpr ⟨hvs.head, hresult⟩) hvs.tail.head

theorem forOf (hg : g.KeepsClosed)
    (hbody : ∀ h v, h.Holds [v] → Run.KeepsClosed h (holding fun c => [c.value]) (body v)) {iterable : Value}
    (hiterable : iterable.LiveIn h₀) :
    Run.KeepsClosed h₀ (holding fun c => [c.value]) (Iterator.forOf g iterable body) := by
  refine (hg.of hiterable).bind fun iterator h _ hiterator => ?_
  cases iterator with
  | none => exact lift .takePending
  | some iterator => exact hg.loop hbody g.rounds (hiterator.append (Heap.holds_undefined h))

end Loops

theorem entryOf (hg : g.KeepsClosed) {v : Value} (hv : v.LiveIn h₀) :
    Run.KeepsClosed h₀ (holding fun e => e.elim [] fun p => [p.1, p.2]) (Iterator.entryOf g v) := by
  unfold Iterator.entryOf
  split
  · next id =>
    have hid : h₀.Holds [.ofHandle (some id)] := .singleton hv
    refine (hg.getFrom hid _).bind fun key h₁ hgrows₁ hkey => ?_
    refine ifPending (fun h₂ _ => pure (Heap.holds_nil h₂)) fun h₂ hgrows₂ => ?_
    have hid := (hid.mono hgrows₁).mono hgrows₂
    refine (hg.getFrom hid _).bind fun entryValue h₃ hgrows₃ hvalue => ?_
    refine ifPending (fun h₄ _ => pure (Heap.holds_nil h₄)) fun h₄ hgrows₄ => ?_
    exact pure ((((hkey.mono hgrows₂).mono hgrows₃).mono hgrows₄).append (hvalue.mono hgrows₄))
  · exact (lift (.textOf _)).bind fun _ _ _ _ => andPure (.raiseTypeError _) (Heap.holds_nil _)

theorem closeFailed (hg : g.KeepsClosed) {iterator : ObjectId} (hiterator : h₀.Holds [.object iterator]) :
    Run.KeepsClosed h₀ (holding fun _ => []) (Iterator.closeFailed g iterator) := by
  refine (lift .takePending).bind fun thrown h₁ hgrows₁ hthrown => ?_
  have hclose : h₁.Holds [.ofHandle (some iterator), thrown.value] := (hiterator.mono hgrows₁).append hthrown
  exact (hg.close hclose).bind fun _ _ _ houtcome => lift (.rethrow houtcome)

theorem fillMap (hg : g.KeepsClosed) (rounds : Nat) {iterator map : ObjectId}
    (hvs : h₀.Holds [.object iterator, .object map]) :
    Run.KeepsClosed h₀ (holding fun map => [.ofHandle map]) (Iterator.fillMap g rounds iterator map) := by
  induction rounds generalizing h₀ with
  | zero => exact diverge
  | succ rounds ih =>
    refine (hg.item (.singleton hvs.head)).bind fun item h₁ hgrows₁ hitem => ?_
    have hvs := hvs.mono hgrows₁
    cases item with
    | failed => exact pure (Heap.holds_undefined h₁)
    | exhausted => exact pure hvs.tail
    | value v =>
      refine (hg.entryOf hitem.head).bind fun entry h₂ hgrows₂ hentry => ?_
      have hvs := hvs.mono hgrows₂
      cases entry with
      | none =>
        exact (hg.closeFailed (.singleton hvs.head)).bind fun _ h _ _ => pure (Heap.holds_undefined h)
      | some entry =>
        have hinsert := Realm.KeepsClosed.insertEntry hentry.head hentry.tail.head map
        exact (lift hinsert).bind fun _ _ hgrows _ => ih (hvs.mono hgrows)

theorem toMap (hg : g.KeepsClosed) {v : Value} (hv : v.LiveIn h₀) :
    Run.KeepsClosed h₀ (holding fun map => [.ofHandle map]) (Iterator.toMap g v) := by
  refine (lift (.intrinsic _)).bind fun prototype h₁ hgrows₁ hprototype => ?_
  refine (lift (.createCollection (.inl rfl) hprototype.head)).bind fun map h₂ hgrows₂ hmap => ?_
  split
  · exact pure hmap
  refine (hg.of ((hv.mono hgrows₁).mono hgrows₂)).bind fun iterator h₃ hgrows₃ hiterator => ?_
  cases iterator with
  | none => exact pure (Heap.holds_undefined h₃)
  | some iterator => exact hg.fillMap g.rounds (hiterator.append (hmap.mono hgrows₃))

theorem fillSet (hg : g.KeepsClosed) (rounds : Nat) {iterator set : ObjectId}
    (hvs : h₀.Holds [.object iterator, .object set]) :
    Run.KeepsClosed h₀ (holding fun set => [.ofHandle set]) (Iterator.fillSet g rounds iterator set) := by
  induction rounds generalizing h₀ with
  | zero => exact diverge
  | succ rounds ih =>
    refine (hg.item (.singleton hvs.head)).bind fun item h₁ hgrows₁ hitem => ?_
    have hvs := hvs.mono hgrows₁
    cases item with
    | failed => exact pure (Heap.holds_undefined h₁)
    | exhausted => exact pure hvs.tail
    | value v =>
      have hinsert := Realm.KeepsClosed.insertValue hitem.head set
      exact (lift hinsert).bind fun _ _ hgrows _ => ih (hvs.mono hgrows)

theorem toSet (hg : g.KeepsClosed) {v : Value} (hv : v.LiveIn h₀) :
    Run.KeepsClosed h₀ (holding fun set => [.ofHandle set]) (Iterator.toSet g v) := by
  refine (lift (.intrinsic _)).bind fun prototype h₁ hgrows₁ hprototype => ?_
  refine (lift (.createCollection (.inr rfl) hprototype.head)).bind fun set h₂ hgrows₂ hset => ?_
  split
  · exact pure hset
  refine (hg.of ((hv.mono hgrows₁).mono hgrows₂)).bind fun iterator h₃ hgrows₃ hiterator => ?_
  cases iterator with
  | none => exact pure (Heap.holds_undefined h₃)
  | some iterator => exact hg.fillSet g.rounds (hiterator.append (hset.mono hgrows₃))

/-! ### Commands -/

/-- Every command but the one that binds a function to a list iterator. -/
theorem perform (hg : g.KeepsClosed) {c : Command} (hc : ∀ id f, c ≠ .bindNext id f) (hlive : h₀.Holds c.operands) :
    Run.KeepsClosed h₀ (holding c.replyValues) (c.perform g) := by
  cases haction : c.action? with
  | some x =>
    rw [c.perform_of_action g haction]
    exact lift (Realm.KeepsClosed.ofCommand haction hc hlive)
  | none =>
    cases c with
    -- access and calls
    | get id key receiver => exact hg.get hlive.tail.head id key
    | getFrom object key => exact hg.getFrom hlive key
    | getV v key => exact hg.getV hlive.head key
    | getMethod v key => exact hg.getMethod hlive.head key
    | call callable receiver args => exact hg.callValue hlive
    | invoke v key args => exact hg.invoke hlive key
    -- iteration
    | iterator v method =>
      cases method with
      | none => exact hg.of hlive.head
      | some method => exact hg.ofMethod hlive
    | next iterator argument => exact hg.next hlive
    | isDone result => exact hg.isDone hlive
    | value result => exact hg.value hlive
    | step iterator => exact hg.step hlive
    | close iterator c => exact hg.close hlive
    | isIterable v => exact hg.isIterable hlive.head
    | toList v method => exact hg.toList hlive
    -- collections
    | toMap v => exact hg.toMap hlive.head
    | toSet v => exact hg.toSet hlive.head
    | _ => cases haction

end Guest.KeepsClosed

end IterationEngine
