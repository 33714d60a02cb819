import IterationEngine.Proofs.CountedSteps

/-!
# The statistics of an engine

What the heap statistics of an engine count, over all of its lives.

An engine is asked one thing after another, and given objects that have been made elsewhere (`Engine.Use`). Each use
does some operations to the heap (`Engine.Performs`), and the heap is released by none but a shutdown that finds the
engine live and a start that fails (`Engine.Releases`), which finds nothing to release. Put together they are the log of
the engine (`Engine.Logged`), and its heap accounts for that log, after every use and at any moment of a program
(`Engine.heapStatistics`).
-/

namespace IterationEngine

/-- Neither the number of allocations nor the peak ever goes down. -/
theorem Heap.counts_le_operateAll (h : Heap) (log : List Heap.Operation) :
    h.allocations ≤ (h.operateAll log).allocations ∧ h.peak ≤ (h.operateAll log).peak := by
  refine ⟨?_, ?_⟩
  · rw [allocations_operateAll]
    exact Nat.le_add_right _ _
  · induction log using List.reverseRecOn with
    | nil => exact Nat.le_refl _
    | append_singleton log op ih =>
      rw [operateAll_concat]
      exact ih.trans (peak_le_operate _ op)

namespace Engine

variable {S : Type}

/-! ## Uses -/

/-- What can be done with an engine: a request, or an object, if there is one, given to its context to keep. -/
inductive Use (S : Type) where
  | ask (request : Request S)
  | track (o : Option Object)

/-- The engine after a use. Without a context there is nothing that keeps objects. -/
def use (e : Engine S) : Use S → Engine S
  | .ask request => (e.handle request).2
  | .track o => if e.isInitialized then { e with heap := (e.heap.register o).2 } else e

/-- The engine after one use and another. -/
def useAll (e : Engine S) (uses : List (Use S)) : Engine S := uses.foldl use e

/-- The uses that release the heap: shutting a live engine down, and starting one in vain. -/
def Releases (e : Engine S) : Use S → Prop
  | .ask .shutdown => e.isInitialized = true
  | .ask .start => e.start.ok = false
  | .ask _ | .track _ => False

/-- The operations are what the use does to the heap. One of them is a release exactly if the use releases the heap. -/
structure Performs (e : Engine S) (u : Use S) (new : List Heap.Operation) : Prop where
  heap : (e.use u).heap = e.heap.operateAll new
  release : (∃ op ∈ new, op.isRelease = true) ↔ e.Releases u

/-- The engine has come of a fresh one by uses, and the log says what they have done to its heap. -/
inductive Logged : Engine S → List Heap.Operation → Prop
  | fresh (config : Config) (registry : Symbol.Registry) (embedder : Embedder S) :
      Logged (fresh config registry embedder) []
  | use {e : Engine S} {u : Use S} {log new : List Heap.Operation} :
      Logged e log → e.Performs u new → Logged (e.use u) (log ++ new)

section Uses

variable {e : Engine S} {log : List Heap.Operation}

theorem becomes_start (e : Engine S) (hok : e.start.ok = true) : e.heap.Becomes e.start.engine.heap := by
  obtain ⟨-, hstart⟩ | ⟨-, -, hfailed, -⟩ | ⟨-, -, -, hstart⟩ := e.start_cases
  · rw [hstart]
    exact .refl _
  · exact absurd (hfailed.symm.trans hok) Bool.false_ne_true
  · have hkinds : Realm.KeepsKinds Intrinsics.install :=
      Realm.KeepsKinds.sequential.composable.install fun _ => .ofHeap fun _ => rfl
    have hinstall := Realm.Stepwise.install.becoming_of_kinds hkinds e.freshRealm
    rw [hstart, installed]
    -- it does not matter what is installed
    generalize (Intrinsics.install e.freshRealm).2 = realm at hinstall ⊢
    exact hinstall

theorem becomes_run (e : Engine S) (bounds : Program.Bounds) (p : Program S) :
    e.heap.Becomes (e.run bounds p).2.heap := by
  cases hget : e.getContext with
  | error =>
    obtain ⟨registry, state, hrun⟩ := exists_run_of_refused hget bounds p
    rw [hrun]
    exact .refl _
  | ok context =>
    rw [run_eq hget]
    split
    · next c m hrun => exact Program.becomes_of_runWithin hrun
    · exact .refl _

/-- What does not release the heap takes no objects away. -/
theorem becomes_use {u : Use S} (e : Engine S) (hu : ¬ e.Releases u) : e.heap.Becomes (e.use u).heap := by
  cases u with
  | track o =>
    cases hlive : e.isInitialized with
    | true =>
      rw [use, if_pos hlive]
      exact .register _ o
    | false =>
      rw [use, hlive, if_neg Bool.false_ne_true]
      exact .refl _
  | ask request =>
    cases request with
    | start => exact e.becomes_start (Bool.eq_true_of_not_eq_false hu)
    | shutdown =>
      rw [use, handle, shutdown_of_idle (Bool.eq_false_iff.mpr hu)]
      exact .refl _
    | run bounds p => exact e.becomes_run bounds p
    | getContext =>
      rw [use, handle_getContext_snd]
      exact .refl _
    | updateConfig config =>
      rw [use]
      cases hlive : e.isInitialized with
      | true =>
        rw [handle_updateConfig_of_live hlive]
        exact .refl _
      | false =>
        rw [handle_updateConfig_of_idle hlive]
        exact .refl _

/-- What releases the heap does nothing else to it. -/
theorem heap_use_of_releases {u : Use S} {e : Engine S} (hu : e.Releases u) : (e.use u).heap = e.heap.release := by
  cases u with
  | track => cases hu
  | ask request =>
    cases request with
    | start =>
      obtain ⟨hidle, hdepth⟩ := e.start_fails_iff.mp hu
      obtain ⟨hlive, -⟩ | ⟨-, -, -, hstart⟩ | ⟨-, hvalid, -⟩ := e.start_cases
      · exact absurd (hidle.symm.trans hlive) Bool.false_ne_true
      · exact congrArg Engine.heap hstart
      · exact absurd hvalid (Int.not_lt.mpr hdepth)
    | shutdown => exact congrArg Engine.heap (shutdown_of_live hu)
    | run | getContext | updateConfig => cases hu

/-- Whatever is done with an engine comes to some operations on its heap. -/
theorem exists_performs (e : Engine S) (u : Use S) : ∃ new, e.Performs u new := by
  by_cases hu : e.Releases u
  · exact ⟨[.release], heap_use_of_releases hu, iff_of_true ⟨.release, List.mem_singleton_self _, rfl⟩ hu⟩
  · obtain ⟨new, hnew, hheap⟩ := (e.becomes_use hu).log
    refine ⟨new, hheap, iff_of_false ?_ hu⟩
    rintro ⟨op, hop, hrelease⟩
    exact absurd ((hnew op hop).symm.trans hrelease) Bool.false_ne_true

theorem InStep.use (h : e.InStep) (u : Use S) : (e.use u).InStep := by
  cases u with
  | ask request => exact h.handle request
  | track o =>
    cases hlive : e.isInitialized with
    | true =>
      rw [Engine.use, if_pos hlive]
      exact ⟨h.flag, fun hidle => absurd (hidle.symm.trans hlive) Bool.false_ne_true⟩
    | false =>
      rw [Engine.use, hlive, if_neg Bool.false_ne_true]
      exact h

theorem Logged.inStep (h : e.Logged log) : e.InStep := by
  induction h with
  | fresh => exact ⟨rfl, fun _ => rfl⟩
  | use _ _ ih => exact ih.use _

/-- A start in vain finds no objects, so nothing but a shutdown takes objects away. -/
theorem Logged.becomes {u : Use S} (h : e.Logged log) (hu : u ≠ .ask .shutdown) : e.heap.Becomes (e.use u).heap := by
  by_cases hreleases : e.Releases u
  · cases u with
    | track => cases hreleases
    | ask request =>
      cases request with
      | start =>
        have hempty := h.inStep.empty (e.start_fails_iff.mp hreleases).1
        rw [heap_use_of_releases hreleases, Heap.release_of_empty hempty]
        exact .refl _
      | shutdown => exact absurd rfl hu
      | run | getContext | updateConfig => cases hreleases
  · exact e.becomes_use hreleases

/-- The log tells all that has been done to the heap. -/
theorem Logged.heap_eq (h : e.Logged log) : e.heap = Heap.empty.operateAll log := by
  induction h with
  | fresh => rfl
  | use _ hperforms ih => rw [hperforms.heap, ih, Heap.operateAll_append]

theorem exists_logged (config : Config) (registry : Symbol.Registry) (embedder : Embedder S) (uses : List (Use S)) :
    ∃ log, ((Engine.fresh config registry embedder).useAll uses).Logged log := by
  induction uses using List.reverseRecOn with
  | nil => exact ⟨[], .fresh config registry embedder⟩
  | append_singleton uses u ih =>
    obtain ⟨log, hlog⟩ := ih
    obtain ⟨new, hnew⟩ := exists_performs _ u
    refine ⟨log ++ new, ?_⟩
    rw [useAll, List.foldl_append]
    exact .use hlog hnew

end Uses

/-! ## Statistics -/

/-- The heap has come of that of the engine by operations that release nothing, and accounts for them and for the log of
the engine. -/
def AccountsDuring (e : Engine S) (log : List Heap.Operation) (h : Heap) : Prop :=
  ∃ new : List Heap.Operation, (∀ op ∈ new, op.isRelease = false) ∧ h = e.heap.operateAll new ∧
    h.Accounted (log ++ new)

/-- What the statistics of the heap tell, whatever is done with engines. -/
structure HeapStatistics (S : Type) : Prop where
  logged : ∀ config registry embedder (uses : List (Use S)),
    ∃ log, ((Engine.fresh config registry embedder).useAll uses).Logged log
  accounted : ∀ (e : Engine S) log, e.Logged log → e.heap.Accounted log
  /-- Also while a program runs, after each call and each command at any depth. -/
  during : ∀ (e : Engine S) log, e.Logged log → ∀ context, e.context = some context →
    ∀ (p : Program S) bounds c (m : Machine (Embedder S)) (j : Journal),
      p.runWithinNoted bounds ((e.machine context).recording []) = some (c, m.recording j) →
        ∀ ev ∈ j, e.AccountsDuring log ev.heap
  /-- Nothing resets the number of allocations or the peak. -/
  kept : ∀ (e : Engine S) u,
    e.heap.allocations ≤ (e.use u).heap.allocations ∧ e.heap.peak ≤ (e.use u).heap.peak
  nothing : ∀ e : Engine S, e.use (.track none) = e
  /-- What does not release the heap takes neither objects away nor the code of functions. -/
  becomes : ∀ (e : Engine S) u, ¬ e.Releases u → e.heap.Becomes (e.use u).heap
  /-- Nothing but a shutdown does, of an engine that has come of a fresh one. -/
  remains : ∀ (e : Engine S) log, e.Logged log → ∀ u, u ≠ .ask .shutdown → e.heap.Becomes (e.use u).heap
  /-- List iterators that are made while programs are run. -/
  steps : ∀ {m : Machine (Embedder S)} {j : Journal}, History m j → ∀ (pre post : Journal) xs it h₀,
    j = pre ++ .performed (.createListIterator xs) it h₀ :: post → ∃ f, ListIterator.Counted it f xs h₀ post m

theorem heapStatistics (S : Type) : HeapStatistics S where
  logged := exists_logged
  accounted e log h := by
    rw [h.heap_eq]
    exact Heap.accounted_operateAll log
  during e log h context hcontext p bounds c m j hrun ev hev := by
    have hchronicle := Program.chronicle_of_runWithinNoted hrun
    obtain ⟨⟨new, hnew, hheap⟩, -⟩ := (hchronicle.events ev hev).1
    refine ⟨new, hnew, hheap, ?_⟩
    change ev.heap = e.heap.operateAll new at hheap
    rw [hheap, h.heap_eq, ← Heap.operateAll_append]
    exact Heap.accounted_operateAll _
  kept e u := by
    obtain ⟨new, hperforms⟩ := e.exists_performs u
    rw [hperforms.heap]
    exact e.heap.counts_le_operateAll new
  nothing e := by
    show (if e.isInitialized then e else e) = e
    exact ite_self e
  becomes e _ hu := e.becomes_use hu
  remains _ _ h _ hu := h.becomes hu
  steps h _ _ _ _ _ hj := ListIterator.counted_of_history h hj

/-- Makes a list iterator over three values and takes three steps of it. -/
def stepThrice : Program Unit :=
  .perform (.createListIterator [.null, .null, .null]) fun it =>
    .perform (.step (some it)) fun _ =>
      .perform (.step (some it)) fun _ =>
        .perform (.step (some it)) fun _ => .finish (.normal .undefined)

/-- The heap of an engine that has been started accounts for its log at any moment of the program, of which three calls
are steps of the list iterator, and again after a shutdown. -/
theorem heapStatistics_stepThrice :
    ∃ (e : Engine Unit) (log log' : List Heap.Operation) (context : Context) (m : Machine (Embedder Unit)) (h₀ : Heap)
      (post : Journal),
      e.Logged log ∧ e.heap.Accounted log ∧ e.context = some context ∧
      stepThrice.runWithinNoted ⟨2, 8⟩ ((e.machine context).recording []) = some (.normal .undefined,
        m.recording (.performed (.createListIterator [.null, .null, .null]) ⟨17⟩ h₀ :: post)) ∧
      (∀ ev ∈ post, e.AccountsDuring log ev.heap) ∧ post.steps ⟨18⟩ ⟨17⟩ = 3 ∧
      (∃ f, ListIterator.Counted ⟨17⟩ f [.null, .null, .null] h₀ post m) ∧
      e.heap.Becomes (e.use (.ask (.run ⟨2, 8⟩ stepThrice))).heap ∧
      (e.use (.ask .shutdown)).Logged log' ∧ (e.use (.ask .shutdown)).heap.Accounted log' := by
  have hstatistics := heapStatistics Unit
  let e : Engine Unit := (fresh {} {} { state := () }).useAll [.ask .start]
  obtain ⟨log, hlog⟩ := hstatistics.logged {} {} { state := () } [.ask .start]
  obtain ⟨log', hlog'⟩ := hstatistics.logged {} {} { state := () } [.ask .start, .ask .shutdown]
  have hcheck : (e.context.bind fun context =>
      stepThrice.runWithinNoted ⟨2, 8⟩ ((e.machine context).recording [])).any (fun p =>
        p.1 == .normal .undefined && p.2.journal.head?.bind Event.made? == some ([.null, .null, .null], ⟨17⟩) &&
        Journal.steps ⟨18⟩ ⟨17⟩ p.2.journal.tail == 3) = true := by decide +kernel
  obtain ⟨⟨c, n⟩, hsome, hn⟩ := (Option.any_eq_true _ _).mp hcheck
  obtain ⟨context, hcontext, hrun⟩ := Option.bind_eq_some_iff.mp hsome
  rw [Bool.and_eq_true, Bool.and_eq_true, beq_iff_eq, beq_iff_eq, beq_iff_eq] at hn
  obtain ⟨⟨rfl, hmade⟩, hsteps⟩ := hn
  have hduring := hstatistics.during e log hlog context hcontext stepThrice ⟨2, 8⟩ _ n.unrecorded n.journal hrun
  have hhistory : History n.unrecorded n.journal := .run (.start (e.machine context)) hrun
  change _ = some (_, n.unrecorded.recording n.journal) at hrun
  obtain ⟨h₀, post, hj⟩ := Journal.eq_cons_of_made? hmade
  rw [hj] at hsteps hduring hhistory hrun
  have hlater : ∀ ev ∈ post, e.AccountsDuring log ev.heap := fun ev hev => hduring ev (List.mem_cons_of_mem _ hev)
  have hremains := hstatistics.remains e log hlog (.ask (.run ⟨2, 8⟩ stepThrice)) nofun
  exact ⟨e, log, log', context, n.unrecorded, h₀, post, hlog, hstatistics.accounted e log hlog, hcontext, hrun, hlater,
    hsteps, hstatistics.steps hhistory [] post _ _ h₀ rfl, hremains, hlog', hstatistics.accounted _ log' hlog'⟩

/-- Five objects come to those that are intrinsic, and the shutdown takes all of them away but not out of the count. -/
example :
    let live := ((fresh {} {} { state := () }).useAll [.ask .start, .ask (.run ⟨2, 8⟩ stepThrice)]).heap
    let idle := ((fresh {} {} { state := () }).useAll [.ask .start, .ask (.run ⟨2, 8⟩ stepThrice), .ask .shutdown]).heap
    (live.size, live.allocations, live.peak) = (22, 22, 22) ∧ (idle.size, idle.allocations, idle.peak) = (0, 22, 22) := by
  decide +kernel

end Engine

end IterationEngine
