import IterationEngine.Engine

/-!
# Engines in step

How the pieces of an engine's state are kept in step.

An engine keeps a flag, a context and a heap. Each request reads some of them and writes some, and what a request does
is told case by case (`Engine.start_cases` and its like). In an engine that has come of a fresh one the flag is set
exactly if there is a context, and without it there are no objects: it is so at first, and each request that finds it so
leaves it so (`Engine.InStep`, `Engine.Reachable.inStep`). So a start that fails has nothing to drop
(`Engine.InStep.emptied_eq`), and the context is never refused for want of one of the two.
-/

namespace IterationEngine

/-- A heap without objects is one that has been released. -/
theorem Heap.release_of_empty {h : Heap} (hempty : h.objects = #[]) : h.release = h := by
  rw [release, ← hempty]

namespace Engine

variable {S : Type}

/-! ## What a request does -/

/-- The machine of an engine with that context. -/
def machine (e : Engine S) (context : Context) : Machine (Embedder S) where
  realm := { heap := e.heap, context, registry := e.registry }
  host := e.embedder

/-- The engine with what a program leaves. -/
def withMachine (e : Engine S) (m : Machine (Embedder S)) : Engine S :=
  { e with
    heap := m.realm.heap, context := some m.realm.context, registry := m.realm.registry
    embedder := m.host }

/-- The engine, live, with what an action leaves of its realm. -/
def withRealm (e : Engine S) (r : Realm) : Engine S :=
  { e with heap := r.heap, context := some r.context, isInitialized := true, registry := r.registry }

@[simp] theorem context_withRealm (e : Engine S) (r : Realm) : (e.withRealm r).context = some r.context := rfl

/-- The engine with the intrinsic objects installed. -/
def installed (e : Engine S) : Engine S := e.withRealm (Intrinsics.install e.freshRealm).2

/-- The engine without its context and its objects. The flag stays as it is. -/
def emptied (e : Engine S) : Engine S := { e with heap := e.heap.release, context := none }

/-- Starting does nothing to an engine that says it is live. Otherwise it fails if the configuration does not allow it,
and drops context and objects, or it installs the intrinsic objects. -/
theorem start_cases (e : Engine S) :
    (e.isInitialized = true ∧ e.start = { ok := true, log := "", engine := e }) ∨
    (e.isInitialized = false ∧ e.config.maxDepth ≤ 0 ∧ e.start.ok = false ∧ e.start.engine = e.emptied) ∨
    (e.isInitialized = false ∧ 0 < e.config.maxDepth ∧ e.start.ok = true ∧ e.start.engine = e.installed) := by
  unfold start install
  by_cases hlive : e.isInitialized = true
  · rw [if_pos hlive]
    exact .inl ⟨hlive, rfl⟩
  · have hidle := Bool.eq_false_iff.mpr hlive
    rw [if_neg hlive]
    by_cases hdepth : e.config.maxDepth ≤ 0
    · rw [if_pos hdepth]
      exact .inr (.inl ⟨hidle, hdepth, rfl, rfl⟩)
    · rw [if_neg hdepth]
      exact .inr (.inr ⟨hidle, Int.not_le.mp hdepth, rfl, rfl⟩)

theorem shutdown_of_live {e : Engine S} (h : e.isInitialized = true) :
    e.shutdown.engine = { e.emptied with isInitialized := false } := by
  rw [shutdown, if_pos h]
  rfl

theorem shutdown_of_idle {e : Engine S} (h : e.isInitialized = false) :
    e.shutdown = { ok := true, log := "", engine := e } := by
  rw [shutdown, h]
  rfl

theorem updateConfig_of_live {e : Engine S} (h : e.isInitialized = true) (config : Config) :
    e.updateConfig config = .error .alreadyInitialized :=
  if_pos h

theorem updateConfig_of_idle {e : Engine S} (h : e.isInitialized = false) (config : Config) :
    e.updateConfig config = .ok { e with config } := by
  rw [updateConfig, h]
  rfl

/-- Flag and context both are needed. -/
theorem getContext_eq_ok_iff {e : Engine S} {context : Context} :
    e.getContext = .ok context ↔ e.isInitialized = true ∧ e.context = some context := by
  unfold getContext
  cases e.isInitialized <;> cases e.context <;> simp

theorem getContext_of_idle {e : Engine S} (h : e.isInitialized = false) : e.getContext = .error .notInitialized := by
  rw [getContext, h]

theorem run_eq {e : Engine S} {context : Context} (h : e.getContext = .ok context) (bounds : Program.Bounds)
    (p : Program S) : e.run bounds p =
      match p.runWithin bounds (e.machine context) with
      | some (c, m) => (.finished c, e.withMachine m)
      | none => (.unanswered, e) := by
  rw [run, h]
  rfl

/-- Where the context is refused a program can do nothing but make symbols and change the state of its embedder. -/
theorem exists_run_of_refused {e : Engine S} {error : EngineError} (h : e.getContext = .error error)
    (bounds : Program.Bounds) (p : Program S) :
    ∃ registry state, (e.run bounds p).2 = { e with registry, embedder := { e.embedder with state } } := by
  unfold run
  rw [h]
  exact ⟨_, _, rfl⟩

/-! ## In step -/

/-- The flag is set exactly if there is a context, and there are no objects without it. -/
structure InStep (e : Engine S) : Prop where
  flag : e.isInitialized = e.context.isSome
  empty : e.isInitialized = false → e.heap.objects = #[]

namespace InStep

variable {e : Engine S}

theorem isInitialized_iff (h : e.InStep) : e.isInitialized = true ↔ ∃ context, e.context = some context := by
  rw [h.flag]
  exact Option.isSome_iff_exists

theorem context_of_idle (h : e.InStep) (hidle : e.isInitialized = false) : e.context = none := by
  rw [h.flag] at hidle
  exact Option.isSome_eq_false_iff.trans Option.isNone_iff_eq_none |>.mp hidle

theorem getContext_eq {context : Context} (h : e.InStep) (hcontext : e.context = some context) :
    e.getContext = .ok context :=
  getContext_eq_ok_iff.mpr ⟨h.isInitialized_iff.mpr ⟨context, hcontext⟩, hcontext⟩

/-- An idle engine has no context and no objects to drop. -/
theorem emptied_eq (h : e.InStep) (hidle : e.isInitialized = false) : e.emptied = e := by
  rw [emptied, Heap.release_of_empty (h.empty hidle), ← h.context_of_idle hidle]

theorem start (h : e.InStep) : e.start.engine.InStep := by
  obtain ⟨-, hstart⟩ | ⟨hidle, -, -, hstart⟩ | ⟨-, -, -, hstart⟩ := e.start_cases
  · rw [hstart]
    exact h
  · rw [hstart, h.emptied_eq hidle]
    exact h
  · rw [hstart]
    exact ⟨rfl, nofun⟩

theorem shutdown (h : e.InStep) : e.shutdown.engine.InStep := by
  cases hlive : e.isInitialized with
  | true =>
    rw [shutdown_of_live hlive]
    exact ⟨rfl, fun _ => rfl⟩
  | false =>
    rw [shutdown_of_idle hlive]
    exact h

theorem updateConfig (h : e.InStep) {config : Config} {e' : Engine S} (hconfig : e.updateConfig config = .ok e') :
    e'.InStep := by
  cases hlive : e.isInitialized with
  | true =>
    rw [updateConfig_of_live hlive] at hconfig
    cases hconfig
  | false =>
    rw [updateConfig_of_idle hlive] at hconfig
    obtain rfl := Except.ok.inj hconfig
    exact ⟨h.flag, h.empty⟩

/-- What a program leaves is a context in the place of another one, so the flag stays set. -/
theorem withMachine (h : e.InStep) {context : Context} (hcontext : e.context = some context)
    (m : Machine (Embedder S)) : (e.withMachine m).InStep := by
  have hlive := h.isInitialized_iff.mpr ⟨context, hcontext⟩
  exact ⟨hlive, fun hidle => absurd (hidle.symm.trans hlive) Bool.false_ne_true⟩

theorem run (h : e.InStep) (bounds : Program.Bounds) (p : Program S) : (e.run bounds p).2.InStep := by
  cases hget : e.getContext with
  | error =>
    obtain ⟨registry, state, hrun⟩ := exists_run_of_refused hget bounds p
    rw [hrun]
    exact ⟨h.flag, h.empty⟩
  | ok context =>
    rw [run_eq hget]
    split
    · exact h.withMachine (getContext_eq_ok_iff.mp hget).2 _
    · exact h

end InStep

/-! ## Reachable engines -/

/-- The engines that come of fresh ones, by requests that change the life cycle and by programs. -/
inductive Reachable : Engine S → Prop
  | fresh (config : Config) (registry : Symbol.Registry) (embedder : Embedder S) :
      Reachable { config, registry, embedder }
  | updateConfig {e e' : Engine S} {config : Config} :
      Reachable e → e.updateConfig config = .ok e' → Reachable e'
  | start {e : Engine S} : Reachable e → Reachable e.start.engine
  | shutdown {e : Engine S} : Reachable e → Reachable e.shutdown.engine
  | run {e : Engine S} (bounds : Program.Bounds) (p : Program S) : Reachable e → Reachable (e.run bounds p).2

theorem Reachable.inStep {e : Engine S} (h : e.Reachable) : e.InStep := by
  induction h with
  | fresh => exact ⟨rfl, fun _ => rfl⟩
  | updateConfig _ hconfig ih => exact ih.updateConfig hconfig
  | start _ ih => exact ih.start
  | shutdown _ ih => exact ih.shutdown
  | run bounds p _ ih => exact ih.run bounds p

end Engine

end IterationEngine
