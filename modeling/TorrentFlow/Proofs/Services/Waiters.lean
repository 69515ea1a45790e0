import TorrentFlow.Proofs.Services.Invariant
import TorrentFlow.Proofs.Waiting.Steps

/-!
The waiters among the other services. Whatever is done with readers, subscribers and the pump leaves
them alone; and a waiter says that its torrent is gone only if its poller was told so.
-/

namespace TorrentFlow.Services

/-! ### What a step does to a waiter -/

lemma waiters_stopJanitor (p : Pipeline Simulated) : p.stopJanitor.waiters = p.waiters := by
  unfold Pipeline.stopJanitor
  rcases p.janitor with _ | sub
  · rfl
  · exact (Delivery.beside_unsubscribe { p with janitor := none } sub).waiters

lemma waiters_cancelReader (p : Pipeline Simulated) (id : Nat) :
    (p.cancelReader id).waiters = p.waiters := by
  unfold Pipeline.cancelReader
  rcases p.readers.get? id with _ | r <;> rfl

lemma waiters_dropReader (p : Pipeline Simulated) (id : Nat) :
    (p.dropReader id).waiters = p.waiters := by
  unfold Pipeline.dropReader
  rcases hr : p.readers.get? id with _ | r
  · rfl
  · have hend : Attended id r.subscription p (p.endReader id) := .endReader hr
    have hleave := Delivery.beside_unsubscribe
      { p.endReader id with readers := (p.endReader id).readers.erase id } r.subscription
    exact hleave.waiters.trans hend.waiters

lemma waiters_read (p : Pipeline Simulated) (h : Handle) (pieces : List Piece) :
    (p.read h pieces).2.waiters = p.waiters := by
  rw [read_snd]
  exact (Delivery.beside_subscribe p (Pipeline.readRequest h)).waiters

lemma waiters_janitorStep {p q : Pipeline Simulated} (hq : p.janitorStep = some q) :
    q.waiters = p.waiters := by
  obtain ⟨sub, -, hswept⟩ := swept_janitorStep hq
  cases hswept with
  | looked => rfl
  | forgot => rfl
  | quit notices => exact waiters_stopJanitor _

/-- What a step may make of one waiter, or of its place. -/
inductive Upkeep (p : Pipeline Simulated) : Option Waiter → Option Waiter → Prop
  | same (place : Option Waiter) : Upkeep p place place
  | polled (w : Waiter) : Upkeep p (some w) (some w.poll.2)
  | asked (w : Waiter) : Upkeep p (some w) (some (w.ask p.engine).1)
  | published (w : Waiter) : Upkeep p (some w) (some (w.publish p.now))
  | dropped (place : Option Waiter) : Upkeep p place none

lemma Upkeep.put {p : Pipeline Simulated} {id j : Nat} {w w' : Waiter}
    (hw : p.waiters.get? j = some w) (h : Upkeep p (some w) (some w')) :
    Upkeep p (p.waiters.get? id) ((p.waiters.set j w').get? id) := by
  rw [Table.get?_set]
  split_ifs with hj
  · rw [hj, hw]
    exact h
  · exact .same _

/-- **Every step, seen from one waiter.** -/
theorem upkeep_step {p q : Pipeline Simulated} {event : Event} (hstep : Step p event q) {id : Nat}
    (hid : id < p.nextScope) : Upkeep p (p.waiters.get? id) (q.waiters.get? id) := by
  have hsame : ∀ {q : Pipeline Simulated}, q.waiters = p.waiters →
      Upkeep p (p.waiters.get? id) (q.waiters.get? id) := fun hq => hq ▸ .same _
  cases hstep with
  | deliver h => exact hsame (Delivery.step_beside h).waiters
  | read handle pieces => exact hsame (waiters_read p handle pieces)
  | next hr => exact hsame (Attended.polls hr (polls_pollReader hr)).waiters
  | cancel j => exact hsame (waiters_cancelReader p j)
  | drop j => exact hsame (waiters_dropReader p j)
  | janitor hq => exact hsame (waiters_janitorStep hq)
  | dismiss => exact hsame (waiters_stopJanitor p)
  | wait handle pieces interval =>
    unfold Pipeline.wait
    rcases Waiter.start handle pieces interval.nanos p.now p.engine with ⟨e | w, engine⟩
    · exact .same _
    · simp only [Pipeline.putWaiter, Table.get?_set, if_neg (Nat.ne_of_lt hid)]
      exact .same _
  | pollWaiter j =>
    unfold Pipeline.pollWaiter
    rcases hw : p.waiters.get? j with _ | w
    · exact .same _
    · exact .put hw (.polled w)
  | dropWaiter j =>
    simp only [Pipeline.dropWaiter, Table.get?_erase]
    split_ifs
    · exact .dropped _
    · exact .same _
  | askPoll j =>
    unfold Pipeline.askPoll
    rcases hw : p.waiters.get? j with _ | w
    · exact .same _
    · exact .put hw (.asked w)
  | publishPoll j =>
    unfold Pipeline.publishPoll
    rcases hw : p.waiters.get? j with _ | w
    · exact .same _
    · exact .put hw (.published w)
  | aside => exact .same _

/-! ### What a waiter knows of its torrent -/

/-- The engine says that a handle is not valid only if its torrent is gone. -/
lemma gone_of_query {h : Handle} {s : Simulated}
    (hq : (Waiter.query h s).1 = .error .handleInvalid) :
    s.torrent? h = none := by
  rcases ht : s.torrent? h with _ | t
  · rfl
  · have hsame : ({ s with statusQueries := s.statusQueries + 1 } : Simulated).torrent? h =
        some t := ht
    simp [Waiter.query, Engine.status, Simulated.status, Simulated.withTorrent, hsame] at hq

/-- A waiter was told that its torrent is gone only if it is. -/
structure Wary (engine : Simulated) (h : Handle) (w : Waiter) : Prop where
  handle : w.handle = h
  answer : ∀ poller, w.poller = some poller → poller.answer = some (.error .handleInvalid) →
    engine.torrent? h = none
  failure : w.failure = some .handleInvalid → engine.torrent? h = none

namespace Wary

variable {engine engine' : Simulated} {h : Handle} {w : Waiter}

lemma mono (hw : Wary engine h w) (hgone : engine.torrent? h = none → engine'.torrent? h = none) :
    Wary engine' h w :=
  ⟨hw.handle, fun poller hp ha => hgone (hw.answer poller hp ha), fun hf => hgone (hw.failure hf)⟩

lemma of_poller (hw : Wary engine h w) {w' : Waiter} (hh : w'.handle = w.handle)
    (hp : ∀ poller, w'.poller = some poller → poller.answer ≠ none → w.poller = some poller)
    (hf : w'.failure = w.failure) : Wary engine h w' :=
  ⟨hh.trans hw.handle, fun poller hp' ha => hw.answer poller (hp poller hp' (by simp [ha])) ha,
    fun he => hw.failure (hf ▸ he)⟩

lemma poll (hw : Wary engine h w) : Wary engine h w.poll.2 := by
  have hended : Wary engine h (Waiting.ended w) := hw.of_poller rfl (fun _ hp => by cases hp) rfl
  have hpolls := Waiting.polls_poll w
  generalize w.poll.1 = answer, w.poll.2 = w' at hpolls
  cases hpolls with
  | past => exact hw
  | exhausted => exact hended
  | yielded => exact hw.of_poller rfl (fun _ hp _ => hp) rfl
  | failed => exact hended
  | orphaned => exact hended
  | waits => exact hw

lemma ask (hw : Wary engine h w) : Wary engine h (w.ask engine).1 := by
  unfold Waiter.ask
  rcases w.poller with _ | poller
  · exact hw
  · refine ⟨hw.handle, fun poller' hp ha => ?_, hw.failure⟩
    obtain rfl := Option.some.inj hp
    have hquery : (Waiter.query w.handle engine).1 = .error .handleInvalid := Option.some.inj ha
    rw [hw.handle] at hquery
    exact gone_of_query hquery

lemma publish (hw : Wary engine h w) (now : Nat) : Wary engine h (w.publish now) := by
  rcases hp : w.poller with _ | poller
  · simpa only [Waiter.publish, hp] using hw
  rcases hr : poller.answer with _ | report
  · simpa only [Waiter.publish, hp, hr] using hw
  have hpublishes := Waiting.publishes_publish hp hr now
  generalize w.publish now = w' at hpublishes
  cases hpublishes with
  | failed e =>
    refine ⟨hw.handle, fun _ hp' => (by cases hp'), fun he => hw.answer poller hp ?_⟩
    rw [hr, Option.some.inj he]
  | unknown =>
    refine hw.of_poller rfl (fun poller' hp' ha => absurd ?_ ha) rfl
    rw [← Option.some.inj hp']
    rfl
  | misfit =>
    exact ⟨hw.handle, fun _ hp' => (by cases hp'), fun he => (by cases Option.some.inj he)⟩
  | known =>
    refine hw.of_poller rfl (fun poller' hp' ha => absurd ?_ ha) rfl
    dsimp only at hp'
    split_ifs at hp'
    rw [← Option.some.inj hp']
    rfl

end Wary

lemma wary_begins {engine : Simulated} {h : Handle} {pieces : List Piece} {interval now : Nat}
    {w : Waiter} (hw : Waiting.Begins h pieces interval now engine (.ok w)) (s : Simulated) :
    Wary s h w := by
  cases hw with
  | begun =>
    refine ⟨rfl, fun poller hp ha => ?_, fun he => (by cases he)⟩
    dsimp only at hp
    split_ifs at hp
    obtain rfl := Option.some.inj hp
    cases ha

/-- Beginning to wait is refused for an invalid handle only if the torrent is gone. -/
lemma gone_of_refused {p : Pipeline Simulated} {h : Handle} {pieces : List Piece}
    {interval : Duration} (hw : (p.wait h pieces interval).1 = .error .handleInvalid) :
    p.engine.torrent? h = none := by
  cases Waiting.wait_error hw with
  | refused _ hq => exact gone_of_query hq

structure Waits (p : Pipeline Simulated) (id : Nat) (h : Handle) : Prop where
  scope : id < p.nextScope
  wary : ∀ w, p.waiters.get? id = some w → Wary p.engine h w

lemma waits_wait {p q : Pipeline Simulated} {h : Handle} {pieces : List Piece} {interval : Duration}
    {id : Nat} (hw : p.wait h pieces interval = (.ok id, q)) : Waits q id h := by
  obtain ⟨w, hbegins, hid, hnext, hget⟩ := Waiting.wait_ok hw
  refine ⟨by omega, fun w' hw' => ?_⟩
  obtain rfl := Option.some.inj (hget.symm.trans hw')
  exact wary_begins hbegins _

/-- **No step tells a waiter anything but the truth.** -/
theorem Waits.step {p q : Pipeline Simulated} {event : Event} {id : Nat} {h : Handle}
    (hw : Waits p id h) (hstep : Step p event q) (hn : p.nextScope ≤ q.nextScope)
    (hgone : p.engine.torrent? h = none → q.engine.torrent? h = none) : Waits q id h := by
  refine ⟨Nat.lt_of_lt_of_le hw.scope hn, fun w' hw' => ?_⟩
  have hup := upkeep_step hstep hw.scope
  rw [hw'] at hup
  generalize hplace : p.waiters.get? id = place at hup
  cases hup with
  | same => exact (hw.wary w' hplace).mono hgone
  | polled w => exact (hw.wary w hplace).poll.mono hgone
  | asked w => exact (hw.wary w hplace).ask.mono hgone
  | published w => exact ((hw.wary w hplace).publish p.now).mono hgone

/-- A waiter answers that its handle is not valid only if its torrent is gone. -/
lemma Waits.gone {p : Pipeline Simulated} {id : Nat} {h : Handle} (hw : Waits p id h)
    (ha : (p.pollWaiter id).1 = .item (.error .handleInvalid)) : p.engine.torrent? h = none := by
  unfold Pipeline.pollWaiter at ha
  rcases hget : p.waiters.get? id with _ | w <;> rw [hget] at ha
  · cases ha
  · have hanswer : w.poll.1 = .item (.error .handleInvalid) := ha
    have hpolls := Waiting.polls_poll w
    rw [hanswer] at hpolls
    generalize w.poll.2 = w' at hpolls
    cases hpolls with
    | failed _ _ _ he => exact (hw.wary w hget).failure he

end TorrentFlow.Services
