import Mathlib.Data.List.Induction
import IterationEngine.Proofs.Closed.Programs

/-!
# The life cycle

An engine answers one request after another, of any kind and in any order, those that make no sense where it stands
among them.

Several pieces of its state have to stay in step: the flag that it is initialized, its context, its configuration, and
its heap (`Engine.InStep`). `Engine.Phase` is what an embedder has to remember of it, namely the configuration and
whether the engine is live, with the rule of what each request makes of that.

1. `Engine.phase_handle`: a request moves the phase by the rule.
2. `Engine.LiveSince`: an engine that is live has been started by one of the requests, and lived on.
3. `Engine.Governed`: what holds of an engine on account of its life cycle; it holds after every sequence of requests
   (`Engine.governed_of_requests`).
-/

namespace IterationEngine

namespace Engine

variable {S : Type}

/-- Running a program changes neither the configuration nor the flag. -/
theorem run_keeps (e : Engine S) (bounds : Program.Bounds) (p : Program S) :
    (e.run bounds p).2.config = e.config ∧ (e.run bounds p).2.isInitialized = e.isInitialized := by
  cases hget : e.getContext with
  | error =>
    obtain ⟨registry, state, hrun⟩ := exists_run_of_refused hget bounds p
    rw [hrun]
    exact ⟨rfl, rfl⟩
  | ok context =>
    rw [run_eq hget]
    split <;> exact ⟨rfl, rfl⟩

/-! ## Requests -/

/-- What an embedder may ask of an engine. -/
inductive Request (S : Type) where
  | start
  | shutdown
  | updateConfig (config : Config)
  | getContext
  | run (bounds : Program.Bounds) (p : Program S)

/-- What an engine answers. -/
inductive Reply where
  | changed (ok : Bool) (log : String)
  | configured
  | context (context : Context)
  | ended (outcome : Outcome)
  | refused (error : EngineError)

/-- The answer of an engine to a request, and the engine after it. -/
def handle (e : Engine S) : Request S → Reply × Engine S
  | .start => (.changed e.start.ok e.start.log, e.start.engine)
  | .shutdown => (.changed e.shutdown.ok e.shutdown.log, e.shutdown.engine)
  | .updateConfig config =>
    match e.updateConfig config with
    | .ok e' => (.configured, e')
    | .error error => (.refused error, e)
  | .getContext =>
    match e.getContext with
    | .ok context => (.context context, e)
    | .error error => (.refused error, e)
  | .run bounds p => (.ended (e.run bounds p).1, (e.run bounds p).2)

/-- The engine after a sequence of requests. -/
def handleAll (e : Engine S) (requests : List (Request S)) : Engine S :=
  requests.foldl (fun e request => (e.handle request).2) e

theorem handleAll_append (e : Engine S) (requests requests' : List (Request S)) :
    e.handleAll (requests ++ requests') = (e.handleAll requests).handleAll requests' :=
  List.foldl_append

section Answers

variable {e : Engine S}

theorem handle_updateConfig_of_live (h : e.isInitialized = true) (config : Config) :
    e.handle (.updateConfig config) = (.refused .alreadyInitialized, e) := by
  simp only [handle, updateConfig_of_live h]

theorem handle_updateConfig_of_idle (h : e.isInitialized = false) (config : Config) :
    e.handle (.updateConfig config) = (.configured, { e with config }) := by
  simp only [handle, updateConfig_of_idle h]

theorem handle_getContext_of_ok {context : Context} (h : e.getContext = .ok context) :
    e.handle .getContext = (.context context, e) := by
  simp only [handle, h]

theorem handle_getContext_of_idle (h : e.isInitialized = false) :
    e.handle .getContext = (.refused .notInitialized, e) := by
  simp only [handle, getContext_of_idle h]

/-- Asking for the context changes nothing. -/
theorem handle_getContext_snd (e : Engine S) : (e.handle .getContext).2 = e := by
  rw [handle]
  cases e.getContext <;> rfl

end Answers

theorem InStep.handle {e : Engine S} (h : e.InStep) (request : Request S) : (e.handle request).2.InStep := by
  cases request with
  | start => exact h.start
  | shutdown => exact h.shutdown
  | updateConfig config =>
    rw [Engine.handle]
    split
    · next hconfig => exact h.updateConfig hconfig
    · exact h
  | getContext =>
    rw [handle_getContext_snd]
    exact h
  | run bounds p => exact h.run bounds p

theorem Reachable.handle {e : Engine S} (h : e.Reachable) (request : Request S) : (e.handle request).2.Reachable := by
  cases request with
  | start => exact h.start
  | shutdown => exact h.shutdown
  | updateConfig config =>
    cases hlive : e.isInitialized with
    | true =>
      rw [handle_updateConfig_of_live hlive]
      exact h
    | false =>
      rw [handle_updateConfig_of_idle hlive]
      exact h.updateConfig (updateConfig_of_idle hlive config)
  | getContext =>
    rw [handle_getContext_snd]
    exact h
  | run bounds p => exact h.run bounds p

theorem Reachable.handleAll {e : Engine S} (h : e.Reachable) (requests : List (Request S)) :
    (e.handleAll requests).Reachable := by
  induction requests generalizing e with
  | nil => exact h
  | cons request requests ih => exact ih (h.handle request)

/-! ## Phases -/

/-- Whether an engine is live, and its configuration. -/
structure Phase where
  live : Bool
  config : Config
  deriving DecidableEq, Repr

def phase (e : Engine S) : Phase := ⟨e.isInitialized, e.config⟩

/-- What a request makes of a phase. -/
def Phase.next (phase : Phase) : Request S → Phase
  | .start => { phase with live := phase.live || decide (0 < phase.config.maxDepth) }
  | .shutdown => { phase with live := false }
  | .updateConfig config => if phase.live then phase else { phase with config }
  | .getContext | .run .. => phase

theorem phase_start (e : Engine S) : e.start.engine.phase = e.phase.next (S := S) .start := by
  obtain ⟨hlive, hstart⟩ | ⟨hidle, hdepth, -, hstart⟩ | ⟨hidle, hdepth, -, hstart⟩ := e.start_cases
  · rw [hstart]
    simp [phase, Phase.next, hlive]
  · rw [hstart]
    simp [phase, Phase.next, emptied, hidle, Int.not_lt.mpr hdepth]
  · rw [hstart]
    simp [phase, Phase.next, hdepth, installed, withRealm]

theorem phase_shutdown (e : Engine S) : e.shutdown.engine.phase = e.phase.next (S := S) .shutdown := by
  cases hlive : e.isInitialized with
  | true => rw [shutdown_of_live hlive]; rfl
  | false => rw [shutdown_of_idle hlive, phase, Phase.next, hlive]

/-- A request moves the phase by the rule. -/
theorem phase_handle (e : Engine S) (request : Request S) : (e.handle request).2.phase = e.phase.next request := by
  cases request with
  | start => exact e.phase_start
  | shutdown => exact e.phase_shutdown
  | updateConfig config =>
    cases hlive : e.isInitialized with
    | true =>
      rw [handle_updateConfig_of_live hlive]
      simp [phase, Phase.next, hlive]
    | false =>
      rw [handle_updateConfig_of_idle hlive]
      simp [phase, Phase.next, hlive]
  | getContext => rw [handle_getContext_snd, Phase.next]
  | run bounds p =>
    obtain ⟨hconfig, hlive⟩ := e.run_keeps bounds p
    rw [handle, Phase.next, phase, hconfig, hlive, phase]

theorem phase_handleAll (e : Engine S) (requests : List (Request S)) :
    (e.handleAll requests).phase = requests.foldl Phase.next e.phase := by
  induction requests generalizing e with
  | nil => rfl
  | cons request requests ih =>
    show ((e.handle request).2.handleAll requests).phase = _
    rw [ih, phase_handle, List.foldl_cons]

/-- Only a configuration that allows it makes an engine live, and a live one keeps its configuration. -/
theorem Phase.depth_next {phase : Phase} (h : phase.live = true → 0 < phase.config.maxDepth) (request : Request S) :
    (phase.next request).live = true → 0 < (phase.next request).config.maxDepth := by
  intro hlive
  cases request with
  | start =>
    rcases Bool.or_eq_true_iff.mp hlive with hlive | hdepth
    · exact h hlive
    · exact of_decide_eq_true hdepth
  | shutdown => cases hlive
  | updateConfig config =>
    cases hphase : phase.live with
    | true =>
      rw [next, hphase, if_pos rfl]
      exact h hphase
    | false =>
      rw [next, hphase, if_neg Bool.false_ne_true] at hlive
      cases hlive
  | getContext | run => exact h hlive

theorem Phase.depth_foldl {phase : Phase} (h : phase.live = true → 0 < phase.config.maxDepth)
    (requests : List (Request S)) (hlive : (requests.foldl next phase).live = true) :
    0 < (requests.foldl next phase).config.maxDepth := by
  induction requests generalizing phase with
  | nil => exact h hlive
  | cons request requests ih => exact ih (depth_next h request) hlive

/-- An engine before the first request. -/
def fresh (config : Config) (registry : Symbol.Registry) (embedder : Embedder S) : Engine S :=
  { config, registry, embedder }

theorem handleAll_concat (e : Engine S) (requests : List (Request S)) (request : Request S) :
    e.handleAll (requests ++ [request]) = ((e.handleAll requests).handle request).2 :=
  e.handleAll_append requests [request]

/-- The engine has come of a fresh one by requests. -/
def Requested (e : Engine S) : Prop :=
  ∃ config registry embedder requests, e = (fresh config registry embedder).handleAll requests

theorem Requested.handle {e : Engine S} (h : e.Requested) (request : Request S) :
    (e.handle request).2.Requested := by
  obtain ⟨config, registry, embedder, requests, rfl⟩ := h
  exact ⟨config, registry, embedder, requests ++ [request], (handleAll_concat _ _ _).symm⟩

theorem Reachable.requested {e : Engine S} (h : e.Reachable) : e.Requested := by
  induction h with
  | fresh config registry embedder => exact ⟨config, registry, embedder, [], rfl⟩
  | @updateConfig e e' config _ hconfig ih =>
    have hhandle : (e.handle (.updateConfig config)).2 = e' := by simp only [Engine.handle, hconfig]
    exact hhandle ▸ ih.handle (.updateConfig config)
  | start _ ih => exact ih.handle .start
  | shutdown _ ih => exact ih.handle .shutdown
  | run bounds p _ ih => exact ih.handle (.run bounds p)

/-- A live engine has a positive depth limit in its configuration. -/
theorem Reachable.depth_pos {e : Engine S} (h : e.Reachable) (hlive : e.isInitialized = true) :
    0 < e.config.maxDepth := by
  obtain ⟨config, registry, embedder, requests, rfl⟩ := h.requested
  let e₀ : Engine S := Engine.fresh config registry embedder
  have hidle : e₀.phase.live = true → 0 < e₀.phase.config.maxDepth := nofun
  have hdepth := Phase.depth_foldl hidle requests
  rw [← e₀.phase_handleAll] at hdepth
  exact hdepth hlive

/-! ## Starting -/

theorem start_fails_iff (e : Engine S) : e.start.ok = false ↔ e.isInitialized = false ∧ e.config.maxDepth ≤ 0 := by
  obtain ⟨hlive, hstart⟩ | ⟨hidle, hdepth, hok, -⟩ | ⟨hidle, hdepth, hok, -⟩ := e.start_cases
  · simp [hstart, hlive]
  · exact iff_of_true hok ⟨hidle, hdepth⟩
  · simp [hok, Int.not_le.mpr hdepth]

theorem start_ok_iff (e : Engine S) : e.start.ok = true ↔ e.start.engine.isInitialized = true := by
  obtain ⟨hlive, hstart⟩ | ⟨hidle, hdepth, hok, hstart⟩ | ⟨hidle, hdepth, hok, hstart⟩ := e.start_cases
  · simp [hstart, hlive]
  · simp [hok, hstart, emptied, hidle]
  · rw [hstart]
    exact iff_of_true hok rfl

theorem config_start (e : Engine S) : e.start.engine.config = e.config := congrArg Phase.config e.phase_start

/-- What a start that fails drops has not been there. -/
theorem InStep.engine_of_start_failed {e : Engine S} (he : e.InStep) (h : e.start.ok = false) :
    e.start.engine = e := by
  obtain ⟨-, hstart⟩ | ⟨hidle, -, -, hstart⟩ | ⟨-, -, hok, -⟩ := e.start_cases
  · rw [hstart]
  · rw [hstart, he.emptied_eq hidle]
  · rw [hok] at h
    cases h

theorem start_of_live {e : Engine S} (h : e.isInitialized = true) : e.handle .start = (.changed true "", e) := by
  obtain ⟨-, hstart⟩ | ⟨hidle, -⟩ | ⟨hidle, -⟩ := e.start_cases
  · rw [handle, hstart]
  · rw [h] at hidle
    cases hidle
  · rw [h] at hidle
    cases hidle

/-! ## The start of a life -/

/-- Nothing but a start makes an engine live. -/
theorem live_handle {e : Engine S} (h : e.isInitialized = false) {request : Request S}
    (hlive : (e.handle request).2.isInitialized = true) : request = .start := by
  have hphase := e.phase_handle request
  have hnext : (e.phase.next request).live = true := by rw [← hphase]; exact hlive
  cases request with
  | start => rfl
  | shutdown => cases hnext
  | updateConfig config =>
    simp [phase, Phase.next, h] at hnext
  | getContext | run => exact absurd (h.symm.trans hnext) Bool.false_ne_true

/-- While an engine is live no request changes its configuration. -/
theorem config_handle_of_live {e : Engine S} (h : e.isInitialized = true) (request : Request S) :
    (e.handle request).2.config = e.config := by
  have hphase := congrArg Phase.config (e.phase_handle request)
  refine hphase.trans ?_
  cases request with
  | start | shutdown | getContext | run => rfl
  | updateConfig config => simp [phase, Phase.next, h]

/-- After `before` the engine was idle, then it was started, and it has been live ever since, with the configuration that
it was started with. -/
structure LiveSince (e : Engine S) (before after : List (Request S)) : Prop where
  idle : (e.handleAll before).isInitialized = false
  started : (e.handleAll before).start.ok = true
  live : ∀ part, part <+: after → (e.handleAll (before ++ .start :: part)).isInitialized = true
  config : ∀ part, part <+: after → (e.handleAll (before ++ .start :: part)).config = (e.handleAll before).config

/-- An engine that a sequence of requests leaves live has been started by one of them, and lived on. -/
theorem exists_liveSince {e : Engine S} (he : e.isInitialized = false) (requests : List (Request S))
    (hlive : (e.handleAll requests).isInitialized = true) :
    ∃ before after, requests = before ++ .start :: after ∧ e.LiveSince before after := by
  induction requests using List.reverseRecOn with
  | nil => exact absurd (he.symm.trans hlive) Bool.false_ne_true
  | append_singleton requests request ih =>
    cases hprevious : (e.handleAll requests).isInitialized with
    | false =>
      rw [handleAll_concat] at hlive
      obtain rfl := live_handle hprevious hlive
      have hnil : ∀ part : List (Request S), part <+: [] →
          e.handleAll (requests ++ .start :: part) = (e.handleAll requests).start.engine := by
        intro part hpart
        rw [List.prefix_nil.mp hpart, handleAll_concat, handle]
      refine ⟨requests, [], rfl, hprevious, (start_ok_iff _).mpr hlive, fun part hpart => ?_, fun part hpart => ?_⟩
      · rw [hnil part hpart]
        exact hlive
      · rw [hnil part hpart, config_start]
    | true =>
      obtain ⟨before, after, rfl, hsince⟩ := ih hprevious
      have happend : before ++ .start :: after ++ [request] = before ++ .start :: (after ++ [request]) := by
        rw [List.append_assoc, List.cons_append]
      refine ⟨before, after ++ [request], happend, hsince.idle, hsince.started, fun part hpart => ?_,
        fun part hpart => ?_⟩
      · rcases List.prefix_concat_iff.mp hpart with rfl | hpart
        · rw [← happend]
          exact hlive
        · exact hsince.live part hpart
      · rcases List.prefix_concat_iff.mp hpart with rfl | hpart
        · rw [← happend, handleAll_concat, config_handle_of_live hprevious]
          exact hsince.config after (List.prefix_refl after)
        · exact hsince.config part hpart

/-! ## What the life cycle guarantees -/

/-- What holds of an engine on account of its life cycle. -/
structure Governed (e : Engine S) : Prop where
  initialized : e.isInitialized = true ↔ ∃ context, e.context = some context
  answers : ∀ context, e.context = some context → e.handle .getContext = (.context context, e)
  refuses : e.handle .getContext = (.refused .notInitialized, e) ↔ e.isInitialized = false
  empty : e.isInitialized = false → e.heap.objects = #[]
  depth : e.isInitialized = true → 0 < e.config.maxDepth
  fixed : e.isInitialized = true → ∀ config, e.handle (.updateConfig config) = (.refused .alreadyInitialized, e)
  replaced : e.isInitialized = false → ∀ config, e.handle (.updateConfig config) = (.configured, { e with config })
  /-- Starting fails only on account of the configuration, and then without any effect. -/
  start_fails : e.start.ok = false ↔ e.isInitialized = false ∧ e.config.maxDepth ≤ 0
  start_failed : e.start.ok = false → e.start.engine = e
  start_succeeded : e.start.ok = true → e.start.engine.isInitialized = true ∧ e.start.engine.config = e.config
  /-- What failed succeeds once the configuration has been replaced by one that allows it. -/
  start_retried : e.start.ok = false → ∀ config : Config, 0 < config.maxDepth →
    (e.handleAll [.start, .updateConfig config]).start.ok = true
  start_again : e.isInitialized = true → e.handle .start = (.changed true "", e)
  shutdown_again : e.isInitialized = false → e.handle .shutdown = (.changed true "", e)

theorem Reachable.governed {e : Engine S} (h : e.Reachable) : e.Governed where
  initialized := h.inStep.isInitialized_iff
  answers _ hcontext := handle_getContext_of_ok (h.inStep.getContext_eq hcontext)
  refuses := by
    cases hlive : e.isInitialized with
    | false => exact iff_of_true (handle_getContext_of_idle hlive) rfl
    | true =>
      obtain ⟨context, hcontext⟩ := h.inStep.isInitialized_iff.mp hlive
      rw [handle_getContext_of_ok (h.inStep.getContext_eq hcontext)]
      refine iff_of_false (fun hrefused => ?_) Bool.noConfusion
      cases hrefused
  empty := h.inStep.empty
  depth := h.depth_pos
  fixed := handle_updateConfig_of_live
  replaced := handle_updateConfig_of_idle
  start_fails := e.start_fails_iff
  start_failed := h.inStep.engine_of_start_failed
  start_succeeded hok := ⟨e.start_ok_iff.mp hok, e.config_start⟩
  start_retried := by
    intro hfailed config hdepth
    obtain ⟨hidle, -⟩ := e.start_fails_iff.mp hfailed
    have hretry : e.handleAll [.start, .updateConfig config] = { e with config } := by
      show (e.start.engine.handle (.updateConfig config)).2 = _
      rw [h.inStep.engine_of_start_failed hfailed, handle_updateConfig_of_idle hidle]
    rw [hretry, ← Bool.not_eq_false, start_fails_iff]
    rintro ⟨-, hle⟩
    exact absurd hdepth (Int.not_lt.mpr hle)
  start_again := start_of_live
  shutdown_again hidle := by rw [Engine.handle, shutdown_of_idle hidle]

/-- After every sequence of requests to a fresh engine, its phase is what the rule makes of them, it has all that the life
cycle guarantees, and if it is live it has been so since one of the requests started it. -/
theorem governed_of_requests (config : Config) (registry : Symbol.Registry) (embedder : Embedder S)
    (requests : List (Request S)) :
    ((fresh config registry embedder).handleAll requests).phase = requests.foldl Phase.next ⟨false, config⟩ ∧
    ((fresh config registry embedder).handleAll requests).Governed ∧
    (((fresh config registry embedder).handleAll requests).isInitialized = true →
      ∃ before after, requests = before ++ .start :: after ∧
        (fresh config registry embedder).LiveSince before after) := by
  have hreachable : (fresh config registry embedder).Reachable := .fresh config registry embedder
  exact ⟨phase_handleAll _ requests, (hreachable.handleAll requests).governed, exists_liveSince rfl requests⟩

/-- A start that the configuration does not allow, another configuration, and a start that succeeds. -/
def retry : List (Request Unit) := [.start, .updateConfig { maxDepth := 3 }, .start]

/-- The first start leaves the engine as it was, and after the second it is live under the other configuration. -/
theorem governed_of_requests_retry :
    ∃ e : Engine Unit, e = fresh { maxDepth := 0 } {} { state := () } ∧
      e.start.ok = false ∧ e.start.engine = e ∧
      (e.handleAll retry).isInitialized = true ∧ (e.handleAll retry).config = { maxDepth := 3 } ∧
      (∃ context, (e.handleAll retry).context = some context) ∧
      ∃ before after, retry = before ++ .start :: after ∧ e.LiveSince before after := by
  obtain ⟨-, hfresh, -⟩ := governed_of_requests (S := Unit) { maxDepth := 0 } {} { state := () } []
  obtain ⟨hphase, hgoverned, hsince⟩ := governed_of_requests { maxDepth := 0 } {} { state := () } retry
  have hfailed : (fresh { maxDepth := 0 } {} { state := () } : Engine Unit).start.ok = false := rfl
  obtain ⟨hlive, hconfig⟩ := Phase.mk.inj hphase
  exact ⟨_, rfl, hfailed, hfresh.start_failed hfailed, hlive, hconfig, hgoverned.initialized.mp hlive, hsince hlive⟩

end Engine

end IterationEngine
