import IterationEngine.Proofs.Changes.Programs
import IterationEngine.Proofs.HeapLog

/-!
# Heaps over a run

What becomes of a heap while programs run.

A run registers objects and alters them, it releases none, and every function object keeps its code. `Heap.Becomes` says
so of two heaps. A journal is in order if each heap in it has become the next one (`Machine.Chronicle`), and what its
events tell of list iterators is then still so at the end: the function that an iterator was made with has the step
code, and each call of it has registered one object (`Event.Counted`). Runs keep journals in order
(`Run.Chronicles`), part by part, then programs and calls, by induction on the tree of commands and on how deeply calls
are nested.
-/

namespace IterationEngine

variable {H α β : Type}

/-! ## Heaps -/

namespace Heap

/-- `h'` has come of `h` by operations that release nothing. -/
def Continues (h h' : Heap) : Prop :=
  ∃ log : List Operation, (∀ op ∈ log, op.isRelease = false) ∧ h' = h.operateAll log

/-- `h'` has come of `h` without a release, and function objects have kept their code. -/
structure Becomes (h h' : Heap) : Prop where
  log : h.Continues h'
  code : h.KeepsCode h'

/-- `h'` has one object more. -/
structure Gains (h h' : Heap) : Prop where
  size : h'.size = h.size + 1
  allocations : h'.allocations = h.allocations + 1
  peak : h'.peak = max h.peak (h.size + 1)

variable {h h' h'' : Heap}

theorem Continues.refl (h : Heap) : h.Continues h := ⟨[], List.forall_mem_nil _, rfl⟩

theorem Continues.trans (hh : h.Continues h') (hh' : h'.Continues h'') : h.Continues h'' := by
  obtain ⟨log, hlog, rfl⟩ := hh
  obtain ⟨log', hlog', rfl⟩ := hh'
  exact ⟨log ++ log', List.forall_mem_append.mpr ⟨hlog, hlog'⟩, (h.operateAll_append log log').symm⟩

theorem Continues.operate (h : Heap) (op : Operation) (hop : op.isRelease = false) : h.Continues (h.operate op) :=
  ⟨[op], List.forall_mem_singleton.mpr hop, rfl⟩

theorem Becomes.refl (h : Heap) : h.Becomes h := ⟨.refl h, .ofKinds (.refl h)⟩

theorem Becomes.trans (hh : h.Becomes h') (hh' : h'.Becomes h'') : h.Becomes h'' :=
  ⟨hh.log.trans hh'.log, hh.code.trans hh'.code⟩

theorem Becomes.register (h : Heap) (o : Option Object) : h.Becomes (h.register o).2 := by
  refine ⟨.operate h (.register o) rfl, ?_⟩
  cases o with
  | none => exact .ofKinds (.refl h)
  | some o => exact .ofKinds (.alloc h o)

theorem gains_alloc (h : Heap) (o : Object) : h.Gains (h.alloc o).2 := ⟨h.size_alloc o, rfl, rfl⟩

end Heap

/-- An elementary change of a realm is an operation on its heap, or none. -/
theorem Realm.Change.continues {r r' : Realm} (h : r.Change r') : r.heap.Continues r'.heap := by
  cases h with
  | context | symbol => exact .refl _
  | @alloc o => exact .operate r.heap (.register (some o)) rfl
  | @modify id f => exact .operate r.heap (.modify id f) rfl

theorem Realm.Changes.continues {r r' : Realm} (h : r.Changes r') : r.heap.Continues r'.heap := by
  induction h with
  | refl => exact .refl _
  | tail _ hstep ih => exact ih.trans hstep.continues

/-! ## Calls of step code -/

namespace ListIterator

/-- Whether it is permitted or refused, a step registers one object. -/
theorem gains_stepped (r : Realm) (x : Except Refusal (ObjectId × List Value × Nat)) :
    r.heap.Gains (stepped r x).2.heap := by
  rcases x with refusal | ⟨it, values, index⟩
  · exact r.heap.gains_alloc _
  · have hmoved := (moved r.heap it values index).gains_alloc
      (.ofResult (r.context.intrinsic .objectPrototype) (values[index]?.getD .undefined) values[index]?.isNone)
    have hsize := size_moved r.heap it values index
    have hcounts : (moved r.heap it values index).allocations = r.heap.allocations ∧
        (moved r.heap it values index).peak = r.heap.peak := by
      unfold moved
      split <;> exact ⟨rfl, rfl⟩
    refine ⟨hmoved.size.trans (congrArg (· + 1) hsize), hmoved.allocations.trans (congrArg (· + 1) hcounts.1), ?_⟩
    rw [← hsize, ← hcounts.2]
    exact hmoved.peak

end ListIterator

/-- A call after which its function has the step code has run that code, or none at the limit of the depth. -/
theorem gains_of_call {guest : GuestCode H} {f : ObjectId} {v result : Value} {args : List Value} {m m' : Machine H}
    (h : callFunction guest f v args m = some (result, m')) (hkeeps : m.realm.heap.KeepsCode m'.realm.heap)
    (hcode : m'.realm.heap.code? f = some (.builtin .listNext)) : m.realm.heap.Gains m'.realm.heap := by
  by_cases hcan : m.realm.context.canCall = true
  · cases hbefore : m.realm.heap.code? f with
    | some code =>
      obtain rfl := Option.some.inj ((hkeeps f code hbefore).symm.trans hcode)
      rw [callFunction_listNext guest f v args m hcan hbefore] at h
      obtain ⟨-, rfl⟩ := Prod.mk.inj (Option.some.inj h)
      exact ListIterator.gains_stepped _ _
    | none =>
      -- an object without code runs nothing, and has none afterwards
      rw [callFunction_of_canCall guest f v args hcan, hbefore] at h
      obtain rfl : _ = m' := (Prod.mk.inj (Option.some.inj h)).2
      cases hbefore.symm.trans hcode
  · rw [callFunction_of_limit guest f v args hcan] at h
    obtain ⟨-, rfl⟩ := Prod.mk.inj (Option.some.inj h)
    exact m.realm.heap.gains_alloc _

/-! ## Journals in order -/

/-- What an event tells of list iterators: how they are made, and that a call of a function with the step code
registers one object. -/
def Event.Counted : Event → Prop
  | .called c => c.after.heap.code? c.function = some (.builtin .listNext) → c.before.heap.Gains c.after.heap
  | .performed (.createListIterator xs) it h => ∃ f, ListIterator.Made h it f xs
  | .performed .. | .ranBody .. => True

/-- Each heap in the journal has become the next one, from `h₀` up to the heap of the machine. -/
structure Machine.Chronicle (h₀ : Heap) (n : Machine (H × Journal)) : Prop where
  since : h₀.Becomes n.realm.heap
  events : ∀ ev ∈ n.journal, h₀.Becomes ev.heap ∧ ev.heap.Becomes n.realm.heap ∧ ev.Counted
  order : n.journal.Pairwise fun ev ev' => ev.heap.Becomes ev'.heap

/-- A run from a heap to one that has become of it, with a journal that it keeps in order. -/
def Run.Chronicles (x : Run (H × Journal) α) : Prop :=
  ∀ ⦃n a n'⦄, x n = some (a, n') → n.realm.heap.Becomes n'.realm.heap ∧ ∀ h₀, n.Chronicle h₀ → n'.Chronicle h₀

namespace Machine.Chronicle

variable {h₀ : Heap} {n n' : Machine (H × Journal)}

theorem start (m : Machine H) : (m.recording []).Chronicle m.realm.heap :=
  ⟨.refl _, List.forall_mem_nil _, List.Pairwise.nil⟩

/-- A change of the heap, without an event. -/
theorem becomes (h : n.Chronicle h₀) (hheap : n.realm.heap.Becomes n'.realm.heap) (hjournal : n'.journal = n.journal) :
    n'.Chronicle h₀ := by
  refine ⟨h.since.trans hheap, fun ev hev => ?_, hjournal ▸ h.order⟩
  obtain ⟨hsince, hnow, hcounted⟩ := h.events ev (hjournal ▸ hev)
  exact ⟨hsince, hnow.trans hheap, hcounted⟩

/-- One more event, which tells of the heap as it is. -/
theorem noting (h : n.Chronicle h₀) {ev : Event} (hheap : ev.heap = n.realm.heap) (hcounted : ev.Counted) :
    (n.noting ev).Chronicle h₀ := by
  refine ⟨h.since, fun e he => ?_, ?_⟩
  · rcases List.mem_append.mp he with he | he
    · exact h.events e he
    · obtain rfl := List.mem_singleton.mp he
      exact ⟨hheap ▸ h.since, hheap ▸ .refl _, hcounted⟩
  · refine List.pairwise_append.mpr ⟨h.order, List.pairwise_singleton _ _, fun e he e' he' => ?_⟩
    obtain rfl := List.mem_singleton.mp he'
    exact hheap ▸ (h.events e he).2.1

end Machine.Chronicle

/-! ## Runs -/

/-- An action that leaves a heap which has become of the one before. -/
def Realm.Becoming (x : Action α) : Prop := ∀ r : Realm, r.heap.Becomes (x r).2.heap

theorem Realm.Stepwise.becoming {x : Action α} (hx : Realm.Stepwise x)
    (hcode : ∀ r : Realm, r.heap.KeepsCode (x r).2.heap) : Realm.Becoming x :=
  fun r => ⟨(hx r).continues, hcode r⟩

theorem Realm.Stepwise.becoming_of_kinds {x : Action α} (hx : Realm.Stepwise x) (hkinds : Realm.KeepsKinds x) :
    Realm.Becoming x :=
  hx.becoming fun r => .ofKinds (hkinds r)

namespace Run.Chronicles

theorem pure (a : α) : Chronicles (Pure.pure a : Run (H × Journal) α) := by
  intro n b n' h
  obtain ⟨-, rfl⟩ := pure_eq_some h
  exact ⟨.refl _, fun _ hn => hn⟩

theorem diverge : Chronicles (Run.diverge : Run (H × Journal) α) := by
  intro n a n' h
  cases h

theorem bind {x : Run (H × Journal) α} {f : α → Run (H × Journal) β} (hx : Chronicles x)
    (hf : ∀ a, Chronicles (f a)) : Chronicles (x >>= f) := by
  intro n b n'' h
  obtain ⟨a, n', hxa, hfa⟩ := bind_eq_some.mp h
  obtain ⟨hbecomes, hkeeps⟩ := hx hxa
  obtain ⟨hbecomes', hkeeps'⟩ := hf a hfa
  exact ⟨hbecomes.trans hbecomes', fun h₀ hn => hkeeps' h₀ (hkeeps h₀ hn)⟩

theorem lift {x : Action α} (hx : Realm.Becoming x) : Chronicles (liftM x : Run (H × Journal) α) := by
  intro n a n' h
  obtain ⟨-, rfl⟩ := lift_eq_some h
  exact ⟨hx n.realm, fun h₀ hn => hn.becomes (hx n.realm) rfl⟩

theorem ask {x : Action α} (hx : ∀ r, (x r).2 = r) : Chronicles (liftM x : Run (H × Journal) α) :=
  lift fun r => (hx r).symm ▸ .refl _

/-- An action on the context alone. -/
theorem outside {x : Action α} (hx : ∀ r, (x r).2.heap = r.heap) : Chronicles (liftM x : Run (H × Journal) α) :=
  lift fun r => (hx r).symm ▸ .refl _

theorem requireLive (vs : List Value) : Chronicles (Run.requireLive vs : Run (H × Journal) Unit) := by
  intro n a n' h
  obtain ⟨-, rfl⟩ := requireLive_eq_some h
  exact ⟨.refl _, fun _ hn => hn⟩

/-- A note of the heap that the run has left. -/
theorem noted {x : Run (H × Journal) α} (hx : Chronicles x) {event : Realm → α → Realm → Event}
    (hheap : ∀ r a r', (event r a r').heap = r'.heap)
    (hcounted : ∀ ⦃n a n'⦄, x n = some (a, n') → n.realm.heap.Becomes n'.realm.heap →
      (event n.realm a n'.realm).Counted) : Chronicles (x.noted event) := by
  intro n a n' h
  obtain ⟨⟨b, n₁⟩, hrun, hb⟩ := Option.map_eq_some_iff.mp h
  obtain ⟨rfl, rfl⟩ := Prod.mk.inj hb
  obtain ⟨hbecomes, hkeeps⟩ := hx hrun
  exact ⟨hbecomes, fun h₀ hn => (hkeeps h₀ hn).noting (hheap _ _ _) (hcounted hrun hbecomes)⟩

end Run.Chronicles

/-- Calls of guest code keep journals in order. -/
def Guest.Chronicles (g : Guest (H × Journal)) : Prop := ∀ f v args, Run.Chronicles (g.call f v args)

namespace Guest.Chronicles

open Run.Chronicles

variable {g : Guest (H × Journal)}

theorem composable (hg : g.Chronicles) : Run.Composable g fun _ _ x => Run.Chronicles x where
  pure := pure
  diverge := @fun _ _ => diverge
  bind := bind
  call := hg
  ask := ask
  raise _ := outside fun _ => rfl
  takePending := @fun _ => outside fun _ => rfl
  alloc ho hf := (lift ((Realm.Stepwise.alloc ho).becoming_of_kinds (.alloc _))).bind hf
  insertEntry key v _ :=
    lift ((Realm.Stepwise.insertEntry _ key v).becoming_of_kinds (.ofQuiet (.insertEntry _ key v)))
  insertValue v _ := lift ((Realm.Stepwise.insertValue _ v).becoming_of_kinds (.ofQuiet (.insertValue _ v)))

/-- Every command that is one action. -/
theorem ofCommand {c : Command} {x : Action c.Reply} (hx : c.action? = some x) :
    Run.Chronicles (liftM x : Run (H × Journal) c.Reply) := by
  have hstepwise := Realm.Stepwise.ofCommand hx
  by_cases hc : ∃ id f, c = .bindNext id f
  · obtain ⟨id, f, rfl⟩ := hc
    obtain rfl := Option.some.inj hx
    exact lift (hstepwise.becoming (ListIterator.keepsCode_bindNext id f))
  · exact lift (hstepwise.becoming_of_kinds (.ofCommand hx fun id f heq => hc ⟨id, f, heq⟩))

theorem run (hg : g.Chronicles) (c : Command) : Run.Chronicles (c.run g) :=
  (requireLive _).bind fun _ => hg.composable.perform [] c fun _ hx => ofCommand hx

/-- A command with its note. -/
theorem command (hg : g.Chronicles) (c : Command) : Run.Chronicles ((c.run g).noted (.ofCommand c)) := by
  refine (hg.run c).noted (fun _ _ _ => rfl) ?_
  intro n reply n' h _
  cases c with
  | createListIterator xs =>
    obtain ⟨_, n₁, -, hperform⟩ := Run.bind_eq_some.mp h
    obtain ⟨rfl, rfl⟩ := Run.lift_eq_some hperform
    exact ListIterator.made_create xs n₁.realm
  | _ => trivial

end Guest.Chronicles

/-! ## Programs -/

namespace Guest.Chronicles

open Program Run.Chronicles

variable {S : Type} {g : Guest (Embedder S × Journal)}

theorem define (name : String) (arity : UInt32) (body : List Value → Program S) :
    Run.Chronicles (defineFunction name arity body).beside := by
  intro n f n' h
  obtain ⟨⟨b, n₁⟩, hrun, hb⟩ := Option.map_eq_some_iff.mp h
  obtain ⟨rfl, rfl⟩ := Prod.mk.inj hb
  obtain ⟨-, rfl⟩ := Prod.mk.inj (Option.some.inj hrun)
  let o : Object := .ofCode name arity (.guest ⟨n.unrecorded.host.code.size⟩)
  have halloc : n.realm.heap.Becomes (n.realm.heap.alloc o).2 := .register _ (some o)
  exact ⟨halloc, fun h₀ hn => hn.becomes halloc rfl⟩

theorem update (change : S → S) : Run.Chronicles (updateState change).beside := by
  intro n state n' h
  obtain ⟨⟨b, n₁⟩, hrun, hb⟩ := Option.map_eq_some_iff.mp h
  obtain ⟨rfl, rfl⟩ := Prod.mk.inj hb
  obtain ⟨-, rfl⟩ := Prod.mk.inj (Option.some.inj hrun)
  exact ⟨.refl _, fun h₀ hn => hn.becomes (.refl _) rfl⟩

/-- A program, by induction on the tree of its commands. -/
theorem program (hg : g.Chronicles) (p : Program S) : Run.Chronicles (p.runNoted g) := by
  induction p with
  | finish c => exact (requireLive _).bind fun _ => pure c
  | perform command next ih => exact (hg.command command).bind ih
  | define name arity body next _ ih => exact (define name arity body).bind ih
  | forOf iterable body next ihBody ih =>
    exact (requireLive _).bind fun _ => (hg.composable.forOf [] ihBody iterable).bind ih
  | update change next ih => exact (update change).bind ih

theorem code (hg : g.Chronicles) (code : CodeId) (args : List Value) : Run.Chronicles (runGuestNoted g code args) := by
  intro n v n' h
  unfold runGuestNoted at h
  split at h
  · next body _ => exact ((hg.program (body args)).bind fun c => pure c.value) h
  · cases h

/-- A call whose code is run one level deeper, with its note. -/
theorem callFunction (hg : g.Chronicles) (f : ObjectId) (v : Value) (args : List Value) :
    Run.Chronicles ((IterationEngine.callFunction (runGuestNoted g) f v args).noted (.ofCall f v args)) := by
  have hcall : Run.Chronicles (IterationEngine.callFunction (runGuestNoted g) f v args) := by
    refine hg.composable.callFunction [] (fun frame => ⟨outside fun _ => rfl, outside fun _ => rfl⟩) (fun iterator => ?_)
      hg.code f v args
    exact lift ((Realm.Stepwise.advance iterator).becoming fun r => ListIterator.keepsCode_advanced r.heap iterator)
  exact hcall.noted (fun _ _ _ => rfl) fun _ _ _ h hbecomes hcode => gains_of_call h hbecomes.code hcode

end Guest.Chronicles

/-- Calls at every depth, by induction on how deeply they may be nested. -/
theorem chronicles_guestNoted {S : Type} (rounds nesting : Nat) :
    (Program.guestNoted (S := S) rounds nesting).Chronicles := by
  induction nesting with
  | zero => exact fun _ _ _ => .diverge
  | succ nesting ih => exact ih.callFunction

/-! ## Histories -/

section Histories

variable {S : Type} {m m' : Machine (Embedder S)} {j : Journal}

/-- The journal of a program that has been run is in order. -/
theorem Program.chronicle_of_runWithinNoted {p : Program S} {bounds : Program.Bounds} {c : Completion}
    (h : p.runWithinNoted bounds (m.recording []) = some (c, m'.recording j)) :
    (m'.recording j).Chronicle m.realm.heap :=
  ((chronicles_guestNoted bounds.rounds bounds.nesting).program p h).2 _ (.start m)

/-- Whatever a program does, its heap has become of the one before. -/
theorem Program.becomes_of_runWithin {p : Program S} {bounds : Program.Bounds} {c : Completion}
    (h : p.runWithin bounds m = some (c, m')) : m.realm.heap.Becomes m'.realm.heap := by
  obtain ⟨n, hn, hmn⟩ := (upheld_ledgered.runWithin bounds p _).exists_right (.begin (j := []) (.nil _)) h
  obtain ⟨j, rfl⟩ := hmn.records.exists_eq_recording
  exact (chronicle_of_runWithinNoted hn).since

theorem History.exists_chronicle (h : History m j) : ∃ h₀, (m.recording j).Chronicle h₀ := by
  induction h with
  | start m => exact ⟨_, .start m⟩
  | @run m m' j j' p bounds c _ hrun ih =>
    obtain ⟨h₀, hn⟩ := ih
    exact ⟨h₀, ((chronicles_guestNoted bounds.rounds bounds.nesting).program p hrun).2 h₀ hn⟩

end Histories

end IterationEngine
