import IterationEngine.Proofs.ForOf

/-!
# Where exceptions come from

Every exception that an operation reports has been raised by someone.

`Origin` lists who that may be: it was pending before, the caller passed it in, guest code threw it, or the engine
made an error between two runs of guest code. `Traced` is the invariant of a run with a journal: what is pending
has an origin in the journal. It is kept by everything that the protocol does (`mirror_traced`), by closing
(`origin_of_close`), by the rounds of a loop (`traced_of_rounds`) and by filling a map (`origin_of_fillMap`).
-/

namespace IterationEngine

variable {H : Type} {g : Guest H} {given kept : Option Value} {start : Realm}

/-- The value of a throw. -/
def Completion.thrown? : Completion → Option Value
  | .throws v => some v
  | _ => none

theorem Completion.thrown?_eq_some {c : Completion} {v : Value} (h : c.thrown? = some v) : c = .throws v := by
  cases c with
  | throws => exact congrArg _ (Option.some.inj h)
  | normal | returns | breaks | continues => cases h

namespace Event

/-- The realm that a run of guest code found. -/
def before? : Event → Option Realm
  | called c => some c.before
  | ranBody _ before _ _ => some before
  | performed .. => none

/-- The realm that a run of guest code left. -/
def after? : Event → Option Realm
  | called c => some c.after
  | ranBody _ _ _ after => some after
  | performed .. => none

/-- Guest code threw `e`: it left `e` pending, or it is a loop body that answered a throw of it. -/
def Threw : Event → Value → Prop
  | called c, e => c.after.context.pending = some e
  | ranBody _ _ c after, e => after.context.pending.elim c .throws = .throws e
  | performed .., _ => False

end Event

/-- Where an exception comes from that is there at the end of a run with that journal. The errors of the engine
are made after some realm `s`, at the start or left by guest code, and before some realm `t`, found by guest code
or at the end. -/
inductive Origin (given : Option Value) (start final : Realm) (j : Journal) (e : Value) : Prop
  | given : given = some e → Origin given start final j e
  | pending : start.context.pending = some e → Origin given start final j e
  | guest {ev : Event} : ev ∈ j → ev.Threw e → Origin given start final j e
  | engine {s t : Realm} :
      (s = start ∨ ∃ ev ∈ j, ev.after? = some s) → (t = final ∨ ∃ ev ∈ j, ev.before? = some t) →
      s.FreshError t e → Origin given start final j e

theorem Realm.FreshError.mono {r r₁ r₂ : Realm} {e : Value} (h : r.FreshError r₁ e)
    (hh : r₁.heap.Extends r₂.heap) : r.FreshError r₂ e := by
  obtain ⟨id, rfl, hn, he⟩ := h
  obtain ⟨k, hk⟩ := Option.isSome_iff_exists.mp he
  exact ⟨id, rfl, hn, Option.isSome_iff_exists.mpr ⟨k, hh.errorKind? hk⟩⟩

namespace Origin

variable {r r' : Realm} {j : Journal} {e : Value}

/-- An origin stays one while the engine works by itself. -/
theorem mono (h : Origin given start r j e) (hh : r.heap.Extends r'.heap) : Origin given start r' j e := by
  cases h with
  | given h => exact .given h
  | pending h => exact .pending h
  | guest hev ht => exact .guest hev ht
  | engine hs ht he =>
    rcases ht with rfl | ht
    · exact .engine hs (.inl rfl) (he.mono hh)
    · exact .engine hs (.inr ht) he

/-- An origin stays one when guest code is run. -/
theorem event (h : Origin given start r j e) {ev : Event} (hb : ev.before? = some r) :
    Origin given start r' (j ++ [ev]) e := by
  have hold : ∀ {p : Event → Prop}, (∃ ev ∈ j, p ev) → ∃ ev' ∈ j ++ [ev], p ev' :=
    fun ⟨ev', hmem, hp⟩ => ⟨ev', List.mem_append_left _ hmem, hp⟩
  cases h with
  | given h => exact .given h
  | pending h => exact .pending h
  | guest hev ht => exact .guest (List.mem_append_left _ hev) ht
  | engine hs ht he =>
    refine .engine (hs.imp_right hold) (.inr ?_) he
    rcases ht with rfl | ht
    · exact ⟨ev, List.mem_append_right _ List.mem_cons_self, hb⟩
    · exact hold ht

end Origin

/-- With that journal so far and in that realm, whatever is pending has an origin, and so has a value that is
kept aside. -/
structure Traced (given : Option Value) (start : Realm) (kept : Option Value) (j : Journal) (r : Realm) :
    Prop where
  /-- The engine has worked by itself since the start or since guest code last ran. -/
  quiet : ∃ s, (s = start ∨ ∃ ev ∈ j, ev.after? = some s) ∧ s.Quiet r
  pending : ∀ e, r.context.pending = some e → Origin given start r j e
  kept : ∀ e, kept = some e → Origin given start r j e

namespace Traced

variable {r r' : Realm} {j : Journal}

theorem begin (given : Option Value) (r : Realm) : Traced given r none [] r where
  quiet := ⟨r, .inl rfl, .refl r⟩
  pending := fun _ h => .pending h
  kept := nofun

/-- A value that has an origin may be kept aside. -/
theorem keep (h : Traced given start none j r) (hk : ∀ e, kept = some e → Origin given start r j e) :
    Traced given start kept j r :=
  ⟨h.quiet, h.pending, hk⟩

theorem step (h : Traced given start kept j r) (hr : r.Quiet r') : Traced given start kept j r' where
  quiet := by
    obtain ⟨s, hs, hq⟩ := h.quiet
    exact ⟨s, hs, hq.trans hr⟩
  pending := by
    intro e he
    rcases hr.pending e he with he | ⟨id, rfl, hn, hk⟩
    · exact (h.pending e he).mono hr.heap
    · -- an error that is fresh here was fresh when guest code last ran
      obtain ⟨s, hs, hq⟩ := h.quiet
      exact .engine hs (.inl rfl) ⟨id, rfl, hq.heap.get?_eq_none hn, hk⟩
  kept := fun e he => (h.kept e he).mono hr.heap

/-- A run of guest code is the origin of what it leaves pending. -/
theorem event (h : Traced given start kept j r) {ev : Event} (hb : ev.before? = some r)
    (ha : ev.after? = some r') (hp : ∀ e, r'.context.pending = some e → ev.Threw e) :
    Traced given start kept (j ++ [ev]) r' where
  quiet := ⟨r', .inr ⟨ev, List.mem_append_right _ List.mem_cons_self, ha⟩, .refl r'⟩
  pending := fun e he => .guest (List.mem_append_right _ List.mem_cons_self) (hp e he)
  kept := fun e he => (h.kept e he).event hb

end Traced

/-- One machine on both sides, traced. -/
def Tracing (given : Option Value) (start : Realm) (kept : Option Value) (n n' : Machine (H × Journal)) : Prop :=
  n = n' ∧ Traced given start kept n'.journal n'.realm

theorem mirror_traced (g : Guest H) (given : Option Value) (start : Realm) (kept : Option Value) :
    Mirror (Tracing given start kept) g.recorded g.recorded where
  realm := by
    rintro n _ ⟨rfl, -⟩
    rfl
  quiet := by
    rintro n _ r ⟨rfl, h⟩ hq
    exact ⟨rfl, h.step hq⟩
  call := by
    rintro f v args n _ ⟨rfl, h⟩
    cases hc : g.recorded.call f v args n with
    | none => exact .none
    | some p =>
      obtain ⟨m', -, hn⟩ := Guest.recorded_call_eq_some hc
      refine .some ⟨rfl, rfl, ?_⟩
      rw [hn]
      exact h.event rfl rfl fun e he => he
  rounds := rfl

/-- An operation of the protocol keeps what is pending traced. -/
theorem Traced.sim {α : Type} {x : Run (H × Journal) α} {n n' : Machine (H × Journal)} {a : α}
    (hn : Traced given start kept n.journal n.realm) (hx : Run.Sim (Tracing given start kept) x x)
    (h : x n = some (a, n')) : Traced given start kept n'.journal n'.realm := by
  obtain ⟨n'', hn'', heq, ht⟩ := hx.exists_right ⟨rfl, hn⟩ h
  rw [h, Option.some.injEq, Prod.mk.injEq] at hn''
  rw [← hn''.2] at ht
  exact ht

/-- Settling is a step of the engine. -/
theorem Traced.settled {n : Machine (H × Journal)} (hn : Traced given start kept n.journal n.realm) :
    Traced given start kept n.settled.journal n.settled.realm :=
  hn.step (.cleared n.realm)

namespace Iterator

variable {body : Value → Run H Completion}

/-! ## Closing -/

theorem origin_of_closing {iterator method : Handle} {c : Completion} {e : Value} {m m' : Machine H}
    {j calls : Journal} (h : Closing g iterator c m method calls (.throws e) m')
    (hm : Traced given start c.thrown? j m.realm) : Origin given start m'.realm (j ++ calls) e := by
  generalize ho : Completion.throws e = o at h
  cases h with
  | lookupFailed hp =>
    obtain rfl := Completion.throws.inj ho
    rw [List.append_nil]
    exact (hm.pending e hp).mono (.refl _)
  | absent =>
    subst ho
    rw [List.append_nil]
    exact hm.kept e rfl
  | called hp hguest ha =>
    cases ha with
    | thrown =>
      subst ho
      exact (hm.kept e rfl).event rfl
    | cleanupThrew =>
      exact .guest (List.mem_append_right _ List.mem_cons_self) (Machine.pending_of_effective ho.symm)
    | kept hc =>
      subst ho
      cases hc
    | @rejected id _ _ _ _ hm' hp =>
      subst hm'
      obtain rfl := Completion.throws.inj ho
      -- the error that rejects the result is newer than the realm that the call left
      rcases (Realm.Quiet.withError _ _ _).pending _ hp with hold | hfresh
      · cases hold
      · exact .engine (.inr ⟨_, List.mem_append_right _ List.mem_cons_self, rfl⟩) (.inl rfl) hfresh

/-- At the start the outcome to be arbitrated was passed in or is pending. -/
theorem origin_of_effective {c : Completion} {e : Value} {n : Machine H} {j : Journal}
    (h : n.effective c = .throws e) : Origin c.thrown? n.realm n.realm j e := by
  cases hp : n.pending with
  | none =>
    rw [Machine.effective_of_pending_eq_none hp] at h
    exact .given (by rw [h]; rfl)
  | some e' =>
    rw [Machine.effective_of_pending hp] at h
    exact .pending (hp.trans (congrArg _ (Completion.throws.inj h)))

theorem origin_of_close {iterator : Handle} {c : Completion} {e : Value} {n n' : Machine (H × Journal)}
    (hn : Traced given start none n.journal n.realm)
    (hc : ∀ e, n.effective c = .throws e → Origin given start n.realm n.journal e)
    (h : close g.recorded iterator c n = some (.throws e, n')) : Origin given start n'.realm n'.journal e := by
  rw [close_apply] at h
  obtain ⟨method, n₁, calls, hm, hclosing, hj⟩ := closing_of_closeWith h
  have hkeep : Traced given start (n.effective c).thrown? n.journal n.realm :=
    hn.keep fun e he => hc e (Completion.thrown?_eq_some he)
  have hn₁ : Traced given start (n.effective c).thrown? n₁.journal n₁.realm :=
    hkeep.settled.sim ((mirror_traced g _ _ _).getMethod _ _) hm
  have ho := origin_of_closing hclosing hn₁
  rw [hj]
  exact ho

/-! ## Loops -/

theorem traced_of_taken {iterator : ObjectId} {x : Item} {n n' : Machine (H × Journal)}
    (hn : Traced given start none n.journal n.realm) (h : Taken g.recorded iterator n x n') :
    Traced given start none n'.journal n'.realm := by
  have M := mirror_traced g given start none
  cases h with
  | exhausted hs | stepFailed hs => exact hn.sim (M.step _) hs
  | value hs _ hv | valueFailed hs _ hv => exact (hn.sim (M.step _) hs).sim (M.value _) hv

/-- A run of a body is the origin of its own throw. -/
theorem traced_of_body {v : Value} {c : Completion} {n n' : Machine (H × Journal)}
    (hn : Traced given start none n.journal n.realm) (h : recordedBody body v n = some (c, n')) :
    Traced given start none n'.journal n'.realm ∧
      ∀ e, n'.effective c = .throws e → Origin given start n'.realm n'.journal e := by
  unfold recordedBody at h
  obtain ⟨m', -, rfl⟩ := Run.recorded_eq_some h
  refine ⟨hn.event rfl rfl fun e he => ?_, fun e he => ?_⟩
  · exact Machine.effective_of_pending (m := m') he c
  · exact .guest (List.mem_append_right _ List.mem_cons_self) he

theorem traced_of_rounds {iterator : ObjectId} {runs : List BodyRun} {n n' : Machine (H × Journal)}
    (h : Rounds g.recorded (recordedBody body) iterator n runs n')
    (hn : Traced given start none n.journal n.realm) : Traced given start none n'.journal n'.realm := by
  induction h with
  | none => exact hn
  | more ht hb _ _ ih => exact ih ((traced_of_body (traced_of_taken hn ht) hb).1.settled)

theorem origin_of_forOf {iterable : Value} {runs : List BodyRun} {e : Value} {n n' : Machine (H × Journal)}
    (hn : Traced given start none n.journal n.realm)
    (h : ForOf g.recorded (recordedBody body) iterable n runs (.throws e) n') :
    Origin given start n'.realm n'.journal e := by
  have M := mirror_traced g given start none
  generalize ho : Completion.throws e = o at h
  cases h with
  | noIterator hof hp =>
    obtain rfl := Completion.throws.inj ho
    exact ((hn.sim (M.of _) hof).pending _ hp).mono (.refl _)
  | looped hof _ hr he =>
    have hn₂ := traced_of_rounds hr (hn.sim (M.of _) hof)
    cases he with
    | exhausted => cases ho
    | failed ht hp =>
      obtain rfl := Completion.throws.inj ho
      exact ((traced_of_taken hn₂ ht).pending _ hp).mono (.refl _)
    | left ht hb _ hc =>
      obtain ⟨hn₃, heff⟩ := traced_of_body (traced_of_taken hn₂ ht) hb
      rw [leaving_eq_throws ho.symm] at hc
      refine origin_of_close hn₃.settled (fun e' he' => ?_) hc
      rw [Machine.effective_of_pending_eq_none (Machine.pending_settled _)] at he'
      exact (heff e' he').mono (.refl _)

/-! ## Maps -/

theorem origin_of_closeFailed {iterator : ObjectId} {e : Value} {n n' : Machine (H × Journal)}
    (hn : Traced given start none n.journal n.realm) (hp : n.pending.isSome = true)
    (h : closeFailed g.recorded iterator n = some ((), n')) (he : n'.pending = some e) :
    Origin given start n'.realm n'.journal e := by
  obtain ⟨thrown, hthrown⟩ := Option.isSome_iff_exists.mp hp
  unfold closeFailed at h
  rw [Run.bind_eq_of_eq_some (Run.takePending_of_pending hthrown)] at h
  obtain ⟨o, n₁, hclose, h⟩ := Run.bind_eq_some.mp h
  have ho : o.isThrow = true := isThrow_of_close hclose rfl
  cases o with
  | throws v =>
    obtain ⟨-, rfl⟩ := Run.lift_eq_some h
    obtain rfl : v = e := Option.some.inj he
    have hv : Origin given start n₁.realm n₁.journal v := by
      refine origin_of_close hn.settled (fun e' he' => ?_) hclose
      obtain rfl := Completion.throws.inj he'
      exact (hn.pending thrown hthrown).mono (.refl _)
    exact hv.mono (.refl _)
  | normal | returns | breaks | continues => cases ho

theorem origin_of_fillMap {rounds : Nat} {iterator map : ObjectId} {r : Handle} {e : Value}
    {n n' : Machine (H × Journal)} (hn : Traced given start none n.journal n.realm)
    (h : fillMap g.recorded rounds iterator map n = some (r, n')) (he : n'.pending = some e) :
    Origin given start n'.realm n'.journal e := by
  have M := mirror_traced g given start none
  induction rounds generalizing n with
  | zero => cases h
  | succ rounds ih =>
    obtain ⟨x, n₁, hitem, h⟩ := Run.bind_eq_some.mp h
    have hn₁ := hn.sim (M.item iterator) hitem
    cases x with
    | failed | exhausted =>
      obtain ⟨-, rfl⟩ := Run.pure_eq_some h
      exact hn₁.pending e he
    | value v =>
      obtain ⟨entry, n₂, hentry, h⟩ := Run.bind_eq_some.mp h
      have hn₂ := hn₁.sim (M.entryOf v) hentry
      cases entry with
      | some entry =>
        obtain ⟨_, n₃, hinsert, h⟩ := Run.bind_eq_some.mp h
        exact ih (hn₂.sim (M.action (.insertEntry map _ _)) hinsert) h
      | none =>
        obtain ⟨_, n₃, hclose, h⟩ := Run.bind_eq_some.mp h
        obtain ⟨-, rfl⟩ := Run.pure_eq_some h
        exact origin_of_closeFailed hn₂ ((signals_entryOf _ v _ _ _ hentry).mp rfl) hclose he

theorem origin_of_toMap {iterable : Value} {r : Handle} {e : Value} {n n' : Machine (H × Journal)}
    (hn : Traced given start none n.journal n.realm)
    (h : toMap g.recorded iterable n = some (r, n')) (he : n'.pending = some e) :
    Origin given start n'.realm n'.journal e := by
  have M := mirror_traced g given start none
  obtain ⟨prototype, n₁, hp, h⟩ := Run.bind_eq_some.mp h
  obtain ⟨map, n₂, halloc, h⟩ := Run.bind_eq_some.mp h
  have hn₂ := (hn.sim (M.action (.intrinsic _)) hp).sim (M.action (.alloc _)) halloc
  split at h
  · obtain ⟨-, rfl⟩ := Run.pure_eq_some h
    exact hn₂.pending e he
  · obtain ⟨iterator, n₃, hof, h⟩ := Run.bind_eq_some.mp h
    have hn₃ := hn₂.sim (M.of iterable) hof
    cases iterator with
    | none =>
      obtain ⟨-, rfl⟩ := Run.pure_eq_some h
      exact hn₃.pending e he
    | some iterator => exact origin_of_fillMap hn₃ h he

end Iterator

end IterationEngine
