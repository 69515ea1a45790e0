import Mathlib.Data.List.Induction
import TorrentFlow.Proofs.Torrents

/-!
Histories of the simulated engine: whatever anybody does to it, one deed after another, from an
engine that was just made. Most of what a deed changes it changes by emitting alerts.
-/

namespace TorrentFlow

namespace Simulated

/-- What can be done to the engine. -/
inductive Deed where
  | call (c : EngineCall)
  | applyMask (mask : Category)
  | watch
  | unwatch
  | hasAlerts
  | takeAlerts

namespace Deed

def apply (s : Simulated) : Deed → Simulated
  | call c => c.apply s
  | applyMask mask => s.applyMask mask
  | watch => (Simulated.watch s).2
  | unwatch => (Simulated.unwatch s).2
  | hasAlerts => (Simulated.hasAlerts s).2
  | takeAlerts => (Simulated.takeAlerts s).2

end Deed

def after (s : Simulated) (deeds : List Deed) : Simulated := deeds.foldl Deed.apply s

@[simp] lemma after_nil (s : Simulated) : s.after [] = s := rfl

@[simp] lemma after_snoc (s : Simulated) (deeds : List Deed) (d : Deed) :
    s.after (deeds ++ [d]) = d.apply (s.after deeds) := by
  simp [after]

/-- An engine that was just made, with or without the two ways of telling readiness. -/
def made (notifySupported waitSupported : Bool) : Simulated := { notifySupported, waitSupported }

def collect {α : Type} (give : Simulated → Deed → Option α) : Simulated → List Deed → List α
  | _, [] => []
  | s, d :: deeds => (give s d).toList ++ collect give (d.apply s) deeds

lemma collect_snoc {α : Type} (give : Simulated → Deed → Option α) (s : Simulated)
    (deeds : List Deed) (d : Deed) : collect give s (deeds ++ [d]) =
      collect give s deeds ++ (give (s.after deeds) d).toList := by
  induction deeds generalizing s with
  | nil => simp [collect]
  | cons d' deeds ih => simp [collect, after, ih]

lemma slots_deed {d : Deed} (hd : ∀ c, d ≠ .call c) (s : Simulated) :
    (d.apply s).slots = s.slots := by
  cases d with
  | call c => exact absurd rfl (hd c)
  | applyMask | takeAlerts => rfl
  | watch => exact (Source.undisturbed_watch s).slots
  | unwatch => exact (Source.undisturbed_unwatch s).slots
  | hasAlerts => rw [Deed.apply, Source.snd_hasAlerts]

/-- Every torrent says of each of its pieces whether it is there. -/
abbrev Whole (s : Simulated) : Prop := Known (fun _ _ => True) s

lemma Whole.apply {s : Simulated} (h : s.Whole) (c : EngineCall) : (c.apply s).Whole := by
  rcases hc : c.isAdd with _ | _
  · exact Known.apply h hc
  · cases c with
    | add name payloads state => exact Known.insertTorrent h trivial
    | _ => cases hc

lemma Whole.deed {s : Simulated} (h : s.Whole) (d : Deed) : (d.apply s).Whole := by
  by_cases hd : ∃ c, d = .call c
  · obtain ⟨c, rfl⟩ := hd
    exact h.apply c
  · intro g t ht
    rw [torrent?_congr (slots_deed (fun c e => hd ⟨c, e⟩) s)] at ht
    exact h g t ht

theorem whole_after (notifySupported waitSupported : Bool) (deeds : List Deed) :
    ((made notifySupported waitSupported).after deeds).Whole := by
  induction deeds using List.reverseRecOn with
  | nil =>
    intro g t ht
    simp [made, torrent?] at ht
  | append_singleton deeds d ih =>
    rw [after_snoc]
    exact ih.deed d

/-! ### Deeds that tell something -/

@[simp] lemma emit_nil (s : Simulated) : emit [] s = s := by simp [emit]

/-- **A call changes torrents and counts queries; beyond that it emits what it generates.** -/
theorem apply_eq_emit (s : Simulated) (c : EngineCall) : ∃ slots statusQueries,
    c.apply s = emit (c.generated s) { s with slots, statusQueries } := by
  -- a call that finds no torrent, or no such piece, generates nothing
  have hmiss : c.apply s = s → c.generated s = [] → ∃ slots statusQueries,
      c.apply s = emit (c.generated s) { s with slots, statusQueries } := fun ha hg =>
    ⟨s.slots, s.statusQueries, by rw [ha, hg, emit_nil]⟩
  cases c with
  | add name payloads state => exact ⟨_, s.statusQueries, rfl⟩
  | finishChecking h =>
    rcases ht : s.torrent? h with _ | t
    · exact hmiss (by rw [EngineCall.apply, finishChecking, withTorrent_none ht])
        (by simp only [EngineCall.generated, ht])
    · simp only [EngineCall.apply, finishChecking, withTorrent_some ht, EngineCall.generated, ht]
      exact ⟨_, s.statusQueries, rfl⟩
  | remove h =>
    rcases ht : s.torrent? h with _ | t
    · exact hmiss (by rw [EngineCall.apply, removeTorrent, withTorrent_none ht])
        (by simp only [EngineCall.generated, ht])
    · simp only [EngineCall.apply, removeTorrent, withTorrent_some ht, EngineCall.generated, ht]
      exact ⟨_, s.statusQueries, rfl⟩
  | feed h p =>
    rcases ht : s.piece? h p with _ | ⟨t, i⟩
    · exact hmiss (withPiece_none ht) (by simp only [EngineCall.generated, ht])
    · simp only [EngineCall.apply, feed, withPiece_some ht, EngineCall.generated, ht]
      exact ⟨_, s.statusQueries, rfl⟩
  | fail h p e =>
    rcases ht : s.piece? h p with _ | ⟨t, i⟩
    · exact hmiss (withPiece_none ht) (by simp only [EngineCall.generated, ht])
    · simp only [EngineCall.apply, failPiece, withPiece_some ht, EngineCall.generated, ht]
      exact ⟨s.slots, s.statusQueries, rfl⟩
  | log text => exact ⟨s.slots, s.statusQueries, rfl⟩
  | setDeadline h p deadline alert =>
    rcases ht : s.piece? h p with _ | ⟨t, i⟩
    · exact hmiss (withPiece_none ht) (by simp only [EngineCall.generated, ht])
    · simp only [EngineCall.apply, setDeadline, withPiece_some ht, EngineCall.generated, ht]
      by_cases ha : alert = true <;> by_cases hi : t.isAvailable i = true <;>
        simp only [ha, hi, Bool.not_true, Bool.not_false, Bool.false_eq_true, if_false, if_true,
          Bool.and_self, Bool.and_false, Bool.false_and, emit_nil] <;>
        exact ⟨_, s.statusQueries, rfl⟩
  | resetDeadline h p =>
    rcases ht : s.piece? h p with _ | ⟨t, i⟩
    · exact hmiss (withPiece_none ht) rfl
    · simp only [EngineCall.apply, resetDeadline, withPiece_some ht, EngineCall.generated, emit_nil]
      exact ⟨_, s.statusQueries, rfl⟩
  | status h withPieces =>
    exact ⟨s.slots, s.statusQueries + 1, by
      rw [EngineCall.apply, snd_status, EngineCall.generated, emit_nil]⟩
  | isTracked h => exact ⟨s.slots, s.statusQueries, (emit_nil s).symm⟩

/-- The calls of callbacks, after alerts were let into the queue: one more if that ended an empty
queue and somebody is to be called. -/
def rungAfter (s : Simulated) (accepted : List Alert) : List Nat :=
  if s.queue = [] ∧ accepted ≠ [] then s.watcher.toList ++ s.rung else s.rung

lemma emit_eq (alerts : List Alert) (s : Simulated) : emit alerts s =
    { s with
      queue := s.queue ++ alerts.filter s.accepts
      rung := s.rungAfter (alerts.filter s.accepts) } := by
  unfold emit rungAfter ring
  rcases s.queue with _ | ⟨a, queue⟩ <;> rcases alerts.filter s.accepts with _ | ⟨b, accepted⟩ <;>
    rcases s.watcher with _ | n <;> rfl

theorem apply_eq (s : Simulated) (c : EngineCall) : ∃ slots statusQueries, c.apply s =
    { s with
      slots, statusQueries
      queue := s.queue ++ c.accepted s
      rung := s.rungAfter (c.accepted s) } := by
  obtain ⟨slots, statusQueries, h⟩ := apply_eq_emit s c
  exact ⟨slots, statusQueries, h.trans (emit_eq _ _)⟩

/-- Nobody is called, or to be called, who has not registered. -/
structure Registered (s : Simulated) : Prop where
  watcher : ∀ n, s.watcher = some n → n < s.registrations
  rung : ∀ n ∈ s.rung, n < s.registrations

lemma Registered.rungAfter {s : Simulated} (h : s.Registered) (accepted : List Alert) :
    ∀ n ∈ s.rungAfter accepted, n < s.registrations := by
  intro n hn
  unfold Simulated.rungAfter at hn
  split_ifs at hn
  · rcases List.mem_append.mp hn with hn | hn
    · exact h.watcher n (Option.mem_toList.mp hn)
    · exact h.rung n hn
  · exact h.rung n hn

lemma Registered.apply {s : Simulated} (h : s.Registered) (d : Deed) : (d.apply s).Registered := by
  cases d with
  | call c =>
    obtain ⟨slots, statusQueries, heq⟩ := apply_eq s c
    rw [Deed.apply, heq]
    exact ⟨h.watcher, h.rungAfter _⟩
  | applyMask mask => exact ⟨h.watcher, h.rung⟩
  | watch =>
    rw [Deed.apply, Simulated.watch]
    split_ifs
    · refine ⟨fun n hn => ?_, fun n hn => Nat.lt_succ_of_lt (h.rung n hn)⟩
      obtain rfl := Option.some.inj hn
      exact Nat.lt_succ_self _
    · refine ⟨fun n hn => ?_, fun n hn => ?_⟩
      · obtain rfl := Option.some.inj hn
        exact Nat.lt_succ_self _
      · rcases List.mem_cons.mp hn with rfl | hn
        · exact Nat.lt_succ_self _
        · exact Nat.lt_succ_of_lt (h.rung n hn)
    · exact h
  | unwatch =>
    rw [Deed.apply, Simulated.unwatch]
    split_ifs
    · exact ⟨nofun, h.rung⟩
    · exact h
  | hasAlerts =>
    rw [Deed.apply, Source.snd_hasAlerts]
    exact h
  | takeAlerts => exact ⟨h.watcher, h.rung⟩

theorem registered_after (notifySupported waitSupported : Bool) (deeds : List Deed) :
    ((made notifySupported waitSupported).after deeds).Registered := by
  induction deeds using List.reverseRecOn with
  | nil => exact ⟨nofun, nofun⟩
  | append_singleton deeds d ih =>
    rw [after_snoc]
    exact ih.apply d

end Simulated

end TorrentFlow
