import TorrentFlow.Proofs.Delivery.Steps
import TorrentFlow.Proofs.Demands.Operations

/-!
Who holds a category while delivery goes on, over any engine, one that fails at every turn included.
Subscribers come and go, the configuration is replaced, pumps go round and are told to stop, in any
order. What the demand counts is read off the history alone: the last configuration that was staged,
and the requests of those who have not gone.
-/

namespace TorrentFlow.Subscribing

open Demand (Op Tally Counted)
open Holders (share)

variable {σ : Type}

inductive Mark where
  | came (id : Nat) (r : Request)
  | went (id : Nat)
  | staged (configured : Category)
  | quiet

/-- The requests of the subscribers who came and have not gone, by their numbers. -/
def live (trace : List Mark) : Table Nat Request :=
  trace.foldl (fun live mark => match mark with
    | .came id r => live.set id r
    | .went id => live.erase id
    | _ => live) {}

/-- What the configuration holds: the categories staged last, or else those it began with. -/
def standing (first : Category) (trace : List Mark) : Category :=
  trace.foldl (fun standing mark => match mark with
    | .staged next => next
    | _ => standing) first

section Steps

variable [Engine σ] [DecidableEq σ]

inductive Step : Pipeline σ → Mark → Pipeline σ → Prop
  | subscribe (p : Pipeline σ) (r : Request) :
    Step p (.came (p.subscribe r).1 r) (p.subscribe r).2
  | unsubscribe (p : Pipeline σ) (id : Nat) : Step p (.went id) (p.unsubscribe id)
  | stage (p : Pipeline σ) (mask : Category) : Step p (.staged mask) (p.stage mask)
  | receive (p : Pipeline σ) (id : Nat) : Step p .quiet (p.pollSubscription id).2
  | cancel (p : Pipeline σ) (id : Nat) : Step p .quiet (p.cancelSubscription id)
  | askLiveness {p q : Pipeline σ} {id : Nat} (h : p.askLiveness id = some q) : Step p .quiet q
  | answerLiveness {p q : Pipeline σ} {id : Nat} (h : p.answerLiveness id = some q) :
    Step p .quiet q
  | run (p : Pipeline σ) : Step p .quiet p.run.2
  | pump {p q : Pipeline σ} {k : Nat} (h : p.pumpStep k = some q) : Step p .quiet q
  | worker {p q : Pipeline σ} {k : Nat} (h : p.workerStep k = some q) : Step p .quiet q
  | stall (p : Pipeline σ) (k : Nat) : Step p .quiet (p.stall k)
  | stop (p : Pipeline σ) : Step p .quiet p.stopDelivery
  /-- The engine, the clock, the readers and the waiters are nobody's subscription. -/
  | aside (p : Pipeline σ) (engine : σ) (windows : Windows) (readers : Table Nat Reader)
      (waiters : Table Nat Waiter) (nextScope : Nat) (janitor : Option Nat) (now : Nat)
      (notices : List Notice) :
    Step p .quiet { p with engine, windows, readers, waiters, nextScope, janitor, now, notices }

inductive Run : Pipeline σ → List Mark → Pipeline σ → Prop
  | nil (p : Pipeline σ) : Run p [] p
  | snoc {p q r : Pipeline σ} {trace : List Mark} {mark : Mark} (h : Run p trace q)
      (hstep : Step q mark r) : Run p (trace ++ [mark]) r

/-! ### Steps in which nobody comes or goes -/

/-- The demand is the same, and everybody is subscribed on the same terms. -/
structure Still (p q : Pipeline σ) : Prop where
  demand : q.demand = p.demand
  hub : p.hub.Alike q.hub

omit [Engine σ] [DecidableEq σ] in
lemma Still.of_hub {p q : Pipeline σ} (hd : q.demand = p.demand) (hh : q.hub = p.hub) :
    Still p q := ⟨hd, hh ▸ .refl p.hub⟩

omit [DecidableEq σ] in
lemma still_askLiveness {p q : Pipeline σ} {id : Nat} (h : p.askLiveness id = some q) :
    Still p q := by
  unfold Pipeline.askLiveness at h
  rcases hget : p.hub.subscriptions.get? id with _ | s
  · simp [hget] at h
  rcases hl : s.liveness with _ | handle | answer <;> simp only [hget, hl] at h
  · cases h
  · cases h
    exact ⟨rfl, Hub.alike_set _ hget (by rfl) p.hub.busy p.hub.closed⟩
  · cases h

omit [Engine σ] [DecidableEq σ] in
lemma still_answerLiveness {p q : Pipeline σ} {id : Nat} (h : p.answerLiveness id = some q) :
    Still p q := by
  unfold Pipeline.answerLiveness at h
  rcases hget : p.hub.subscriptions.get? id with _ | s
  · simp [hget] at h
  rcases hl : s.liveness with _ | handle | answer <;> simp only [hget, hl] at h
  · cases h
  · cases h
  · have hset : p.hub.Alike { p.hub with
        subscriptions := p.hub.subscriptions.set id { s with liveness := .settled } } :=
      Hub.alike_set { s with liveness := .settled } hget (by rfl) p.hub.busy p.hub.closed
    rcases answer with e | _ | _ <;> cases h
    · exact ⟨rfl, hset.trans (Hub.alike_onMailbox _ id (Mailbox.fail _))⟩
    · exact ⟨rfl, hset.trans (Hub.alike_onMailbox _ id (Mailbox.fail _))⟩
    · exact ⟨rfl, hset⟩

omit [DecidableEq σ] in
lemma still_pumpStep {p q : Pipeline σ} {k : Nat} (h : p.pumpStep k = some q) : Still p q := by
  unfold Pipeline.pumpStep at h
  rcases hk : p.pumps[k]? with _ | ⟨source, phase⟩ <;> simp only [hk] at h
  · cases h
  cases phase with
  | idling since =>
    dsimp only at h
    split_ifs at h <;> cases h
    · exact ⟨rfl, Hub.alike_close _⟩
    · exact .of_hub rfl rfl
  | draining =>
    dsimp only at h
    split_ifs at h with hs
    · cases h
      exact ⟨rfl, Hub.alike_close _⟩
    rcases hpoll : source.poll p.engine with ⟨_ | _ | batch, source', engine⟩ <;>
      simp only [hpoll] at h
    · split_ifs at h
      cases h
      exact .of_hub rfl rfl
    · cases h
      exact ⟨rfl, Hub.alike_close _⟩
    · cases h
      exact .of_hub rfl rfl
  | holding batch =>
    cases h
    exact ⟨rfl, Hub.alike_dispatch _ _⟩
  | leaving result =>
    dsimp only at h
    split_ifs at h
    cases h
    exact .of_hub rfl rfl
  | ended result => cases h

/-- What a step does to those who are subscribed. -/
inductive Effect (p : Pipeline σ) : Mark → Pipeline σ → Prop
  | came (r : Request) : Effect p (.came p.hub.nextId r) (p.subscribe r).2
  | went (id : Nat) : Effect p (.went id) (p.unsubscribe id)
  | staged (mask : Category) : Effect p (.staged mask) (p.stage mask)
  | still {q : Pipeline σ} (h : Still p q) : Effect p .quiet q

/-- **Everything that a step can do.** -/
theorem effect_step {p q : Pipeline σ} {mark : Mark} (hstep : Step p mark q) : Effect p mark q := by
  cases hstep with
  | subscribe r => exact .came r
  | unsubscribe id => exact .went id
  | stage mask => exact .staged mask
  | receive id =>
    rw [Pipeline.pollSubscription_snd]
    exact .still ⟨rfl, p.hub.alike_onMailbox id fun m busy => (m.poll busy).2⟩
  | cancel id => exact .still ⟨rfl, p.hub.alike_onMailbox id fun m busy => (m.cancel, busy)⟩
  | askLiveness h => exact .still (still_askLiveness h)
  | answerLiveness h => exact .still (still_answerLiveness h)
  | run =>
    unfold Pipeline.run
    rcases Source.open p.settings.mode p.engine with ⟨_ | source, engine⟩
    · exact .still (.of_hub rfl rfl)
    · exact .still (.of_hub rfl rfl)
  | pump h => exact .still (still_pumpStep h)
  | @worker _ k h =>
    unfold Pipeline.workerStep at h
    rcases hk : p.pumps[k]? with _ | pump
    · simp [hk] at h
    · simp only [hk, Option.map_eq_some_iff] at h
      obtain ⟨⟨source, engine, notices⟩, -, rfl⟩ := h
      exact .still (.of_hub rfl rfl)
  | stall k =>
    unfold Pipeline.stall
    split
    · exact .still (.of_hub rfl rfl)
    · exact .still (.of_hub rfl rfl)
  | stop =>
    have hasked : p.hub.Alike { p.hub with stopped := true } :=
      ⟨rfl, rfl, id, fun _ => rfl, fun _ _ => rfl⟩
    exact .still ⟨rfl, hasked.trans (Hub.alike_close _)⟩
  | aside => exact .still (.of_hub rfl rfl)

end Steps

/-! ### The history -/

@[simp] lemma live_snoc (trace : List Mark) (mark : Mark) :
    live (trace ++ [mark]) = match mark with
      | .came id r => (live trace).set id r
      | .went id => (live trace).erase id
      | _ => live trace := by
  simp only [live, List.foldl_append, List.foldl_cons, List.foldl_nil]

@[simp] lemma standing_snoc (first : Category) (trace : List Mark) (mark : Mark) :
    standing first (trace ++ [mark]) = match mark with
      | .staged next => next
      | _ => standing first trace := by
  simp only [standing, List.foldl_append, List.foldl_cons, List.foldl_nil]

/-- How many of those who have not gone need category `i`. -/
def needing (trace : List Mark) (i : Nat) : Nat :=
  (live trace).count fun r => r.requiredMask.has i

structure Kept (first : Category) (trace : List Mark) (p : Pipeline σ) : Prop where
  balanced : p.demand.Balanced (needing trace)
  configured : p.demand.configured = standing first trace
  applied : p.demand.applied = p.demand.holders.mask
  sorted : (live trace).Sorted
  masks : ∀ id, (p.hub.subscriptions.get? id).map (·.mask) =
    ((live trace).get? id).map Request.requiredMask
  ids : ∀ id r, (live trace).get? id = some r → id < p.hub.nextId

lemma Kept.still {first : Category} {trace : List Mark} {p q : Pipeline σ}
    (h : Kept first trace p) (hs : Still p q) : Kept first (trace ++ [.quiet]) q := by
  have hmask : ∀ id, (q.hub.subscriptions.get? id).map (·.mask) =
      (p.hub.subscriptions.get? id).map (·.mask) := fun id => by
    have ht := congrArg (Option.map fun t : Filter × Category × Bool => t.2.1) (hs.hub.terms id)
    rw [Option.map_map, Option.map_map] at ht
    exact ht
  refine ⟨?_, ?_, ?_, ?_, fun id => ?_, fun id r hr => ?_⟩
  · exact hs.demand ▸ h.balanced.congr fun i => by simp [needing]
  · simpa [hs.demand] using h.configured
  · simpa [hs.demand] using h.applied
  · simpa using h.sorted
  · simpa [hmask] using h.masks id
  · rw [hs.hub.nextId]
    exact h.ids id r (by simpa using hr)

section Kept

variable [Engine σ]

lemma Kept.came {first : Category} {trace : List Mark} {p : Pipeline σ} (h : Kept first trace p)
    (r : Request) : Kept first (trace ++ [.came p.hub.nextId r]) (p.subscribe r).2 := by
  have hfresh : (live trace).get? p.hub.nextId = none := by
    rcases hr : (live trace).get? p.hub.nextId with _ | r'
    · rfl
    · exact absurd (h.ids _ _ hr) (Nat.lt_irrefl _)
  have hneed : ∀ i, needing (trace ++ [.came p.hub.nextId r]) i =
      needing trace i + share r.requiredMask i := fun i => by
    have hc := Table.count_set h.sorted (fun r => r.requiredMask.has i) p.hub.nextId r
    rw [hfresh, Table.weight_none] at hc
    simpa [needing, share] using hc
  simp only [Pipeline.subscribe_snd, Pipeline.withDemand_eq, Hub.add_eq]
  refine ⟨?_, ?_, ?_, ?_, fun id => ?_, fun id r' hr => ?_⟩
  · exact (h.balanced.acquire r.requiredMask p.engine).congr hneed
  · simpa [Demand.acquire] using h.configured
  · exact p.demand.perform_applied p.engine (.acquire r.requiredMask)
  · simpa using h.sorted.set _ _
  · simp only [live_snoc, Table.get?_set]
    split_ifs
    · rfl
    · exact h.masks id
  · simp only [live_snoc, Table.get?_set] at hr
    split_ifs at hr with hid
    · simp [hid]
    · exact Nat.lt_succ_of_lt (h.ids id r' hr)

lemma Kept.went {first : Category} {trace : List Mark} {p : Pipeline σ} (h : Kept first trace p)
    (id : Nat) : Kept first (trace ++ [.went id]) (p.unsubscribe id) := by
  have hc := fun i => Table.count_erase h.sorted (fun r : Request => r.requiredMask.has i) id
  have hmask := h.masks id
  rcases hs : p.hub.subscriptions.get? id with _ | s
  · -- a number that nobody has changes nothing, in the history and in the hub
    have hnone : (live trace).get? id = none := by simpa [hs] using hmask.symm
    rw [Pipeline.unsubscribe_none hs]
    refine ⟨h.balanced.congr fun i => ?_, by simpa using h.configured, h.applied, ?_, fun j => ?_,
      fun j r hr => ?_⟩
    · have hc := hc i
      rw [hnone, Table.weight_none] at hc
      simpa [needing] using hc
    · simpa using h.sorted.erase id
    · simp only [live_snoc, Table.get?_erase]
      split_ifs with hj
      · rw [hj, hs]
        rfl
      · exact h.masks j
    · simp only [live_snoc, Table.get?_erase] at hr
      split_ifs at hr
      exact h.ids j r hr
  · obtain ⟨r, hr, hrm⟩ : ∃ r, (live trace).get? id = some r ∧ r.requiredMask = s.mask := by
      rw [hs, Option.map_some, eq_comm, Option.map_eq_some_iff] at hmask
      exact hmask
    have hneed : ∀ i, needing (trace ++ [.went id]) i + share s.mask i = needing trace i :=
      fun i => by
        have hc := hc i
        rw [hr, Table.weight_some, hrm] at hc
        simpa [needing, share] using hc
    simp only [Pipeline.unsubscribe_some hs, Pipeline.withDemand_eq]
    refine ⟨?_, ?_, ?_, ?_, fun j => ?_, fun j r' hr' => ?_⟩
    · have hle : ∀ i < 32, share s.mask i ≤ needing trace i :=
        fun i _ => hneed i ▸ Nat.le_add_left _ _
      have hreleased := h.balanced.release s.mask p.engine hle
      dsimp only
      exact hreleased.congr fun i => Nat.eq_sub_of_add_eq (hneed i)
    · simpa [Demand.release_eq] using h.configured
    · dsimp only
      exact p.demand.perform_applied p.engine (.release s.mask)
    · simpa using h.sorted.erase id
    · simp only [live_snoc, Table.get?_erase, Hub.get?_remove]
      split_ifs
      · rfl
      · exact h.masks j
    · simp only [live_snoc, Table.get?_erase] at hr'
      split_ifs at hr'
      rw [Hub.nextId_remove]
      exact h.ids j r' hr'

lemma Kept.staged {first : Category} {trace : List Mark} {p : Pipeline σ} (h : Kept first trace p)
    (mask : Category) : Kept first (trace ++ [.staged mask]) (p.stage mask) := by
  simp only [Pipeline.stage, Pipeline.withDemand_eq]
  refine ⟨?_, ?_, ?_, by simpa using h.sorted, fun id => by simpa using h.masks id,
    fun id r hr => h.ids id r (by simpa using hr)⟩
  · dsimp only
    exact (h.balanced.stage mask p.engine).congr fun i => by simp [needing]
  · simp [Demand.stage_eq]
  · dsimp only
    exact p.demand.perform_applied p.engine (.stage mask)

lemma kept_assemble (settings : Settings) (engine : σ) :
    Kept settings.mask [] (Pipeline.assemble settings engine) := by
  simp only [Pipeline.assemble, Pipeline.withDemand_eq]
  refine ⟨?_, ?_, ?_, Table.sorted_empty, fun id => rfl, fun id r hr => ?_⟩
  · exact (Demand.balanced_start settings.mask engine).congr fun i => rfl
  · simp [Demand.start, standing]
  · simp [Demand.start]
  · cases hr

theorem kept_run [DecidableEq σ] {settings : Settings} {engine : σ} {trace : List Mark}
    {p : Pipeline σ} (hrun : Run (Pipeline.assemble settings engine) trace p) :
    Kept settings.mask trace p := by
  generalize hp : Pipeline.assemble settings engine = start at hrun
  induction hrun with
  | nil => exact hp ▸ kept_assemble settings engine
  | snoc _ hstep ih =>
    cases effect_step hstep with
    | came r => exact ih.came r
    | went id => exact ih.went id
    | staged mask => exact ih.staged mask
    | still hs => exact ih.still hs

end Kept

/-- With nobody left, the categories that are held are those of the configuration. -/
lemma Kept.restored {first : Category} {trace : List Mark} {p : Pipeline σ}
    (h : Kept first trace p) (hnone : (live trace).entries = []) :
    p.demand.applied = standing first trace := by
  have hneed : ∀ i, needing trace i = 0 := fun i => by
    simp [needing, Table.count, Table.values, hnone]
  refine Category.eq_of_has fun i hi => ?_
  rw [h.applied, Holders.has_mask h.balanced.tidy hi, h.balanced.count i hi, hneed, h.configured]
  by_cases hc : (standing first trace).has i = true <;> simp [share, hc]

/-- What is known of the holders after some history. -/
structure Held (first : Category) (trace : List Mark) (p : Pipeline σ) : Prop where
  /-- The configuration counts once, and so does everybody who needs the category and has not
  gone. -/
  count : ∀ i < 32, p.demand.holders.count (.bit i) =
    share (standing first trace) i + needing trace i
  restored : (live trace).entries = [] → p.demand.applied = standing first trace

/-- **Each category is counted by itself, whatever is acquired, given back and staged. So while
subscribers come and go its holders are the configuration and those who need it.** -/
theorem categories_counted {σ : Type} [Engine σ] [DecidableEq σ] :
    (∀ (aside : σ → σ → Prop) (configured : Category) (engine e : σ) (ops : List Op) (d : Demand),
      Demand.Run aside configured engine ops d e → Counted σ configured ops d) ∧
    ∀ (settings : Settings) (engine : σ) (trace : List Mark) (p : Pipeline σ),
      Run (Pipeline.assemble settings engine) trace p → Held settings.mask trace p := by
  refine ⟨fun aside configured engine e ops d hrun => (Demand.settled_run hrun).counted,
    fun settings engine trace p hrun => ?_⟩
  have h := kept_run hrun
  refine ⟨fun i hi => ?_, h.restored⟩
  rw [h.balanced.count i hi, h.configured]

/-- The status category is given back in vain; a subscriber comes, other categories are staged, and
he goes again. -/
theorem categories_counted_staged :
    (∃ d : Demand, Counted Simulated .error [.release (.error ||| .status)] d ∧
      d.holders.count .error = 0 ∧ d.unheld (.release .error) = [0]) ∧
    ∃ (trace : List Mark) (p : Pipeline Simulated), Held .error trace p ∧
      needing trace 13 = 0 ∧ p.demand.applied = .storage := by
  obtain ⟨hops, hruns⟩ := categories_counted (σ := Simulated)
  let before := (Pipeline.assemble {} ({} : Simulated)).subscribe { kinds := [.log] }
  let p := (before.2.stage .storage).unsubscribe before.1
  have hrun : Run (Pipeline.assemble {} {})
      ([] ++ [.came before.1 { kinds := [.log] }] ++ [.staged .storage] ++ [.went before.1]) p :=
    (((Run.nil _).snoc (.subscribe _ _)).snoc (.stage _ _)).snoc (.unsubscribe _ _)
  exact ⟨⟨_, hops (fun _ _ => False) .error {} _ _ _ (Demand.Run.start.perform _),
    by decide +kernel,
    by decide +kernel⟩, _, p, hruns {} {} _ p hrun, by decide +kernel, by decide +kernel⟩

end TorrentFlow.Subscribing
