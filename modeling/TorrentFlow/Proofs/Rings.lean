import TorrentFlow.Proofs.Histories

/-!
Who is called, and when. A call of the engine can post several alerts. Each post tells whether it
ended an empty queue, and the callback is called if one of them did; that this comes to one call of
the callback, whatever the mask lets through, is the first half. The second half counts along a
history: a callback is called when a queue begins to fill and when somebody registers who is late,
so that nobody who is registered sleeps over a queue.
-/

namespace TorrentFlow

namespace Simulated

/-! ### Posting alerts one after another -/

def post (a : Alert) (s : Simulated) : Bool × Simulated :=
  if s.accepts a then (s.queue.isEmpty, { s with queue := s.queue ++ [a] }) else (false, s)

def postAll : List Alert → Simulated → List Bool × Simulated
  | [], s => ([], s)
  | a :: alerts, s =>
    ((post a s).1 :: (postAll alerts (post a s).2).1, (postAll alerts (post a s).2).2)

/-- Calls the callback if one of the posts told that it ended an empty queue. -/
def signal (reports : List Bool) (s : Simulated) : Simulated := if reports.any id then s.ring else s

lemma accepts_post (a : Alert) (s : Simulated) : (post a s).2.accepts = s.accepts := by
  unfold post
  split_ifs <;> rfl

lemma postAll_snd (alerts : List Alert) (s : Simulated) :
    (postAll alerts s).2 = { s with queue := s.queue ++ alerts.filter s.accepts } := by
  induction alerts generalizing s with
  | nil => simp [postAll]
  | cons a alerts ih =>
    rw [postAll, ih, accepts_post, post]
    rcases ha : s.accepts a with _ | _ <;> simp [ha]

lemma count_postAll (alerts : List Alert) (s : Simulated) : (postAll alerts s).1.count true =
    if s.queue = [] ∧ alerts.filter s.accepts ≠ [] then 1 else 0 := by
  induction alerts generalizing s with
  | nil => simp [postAll]
  | cons a alerts ih =>
    rw [postAll, List.count_cons, ih, accepts_post, post]
    rcases ha : s.accepts a with _ | _ <;> rcases hq : s.queue with _ | ⟨b, queue⟩ <;> simp [ha, hq]

/-- **Emitting is posting one after another, and one signal for all of it.** -/
theorem emit_eq_signal (alerts : List Alert) (s : Simulated) :
    emit alerts s = signal (postAll alerts s).1 (postAll alerts s).2 := by
  have hany : (postAll alerts s).1.any id = true ↔ s.queue = [] ∧ alerts.filter s.accepts ≠ [] := by
    have hmem : (postAll alerts s).1.any id = true ↔ true ∈ (postAll alerts s).1 := by simp
    rw [hmem, ← List.count_pos_iff, count_postAll]
    split_ifs with h
    · exact iff_of_true Nat.one_pos h
    · exact iff_of_false (Nat.lt_irrefl 0) h
  rw [emit_eq, signal, postAll_snd, rungAfter]
  by_cases h : s.queue = [] ∧ alerts.filter s.accepts ≠ []
  · rw [if_pos (hany.mpr h), if_pos h, ring]
    rcases s.watcher with _ | n <;> rfl
  · rw [if_neg (mt hany.mp h), if_neg h]

lemma length_generated_le (s : Simulated) (c : EngineCall) : (c.generated s).length ≤ 3 := by
  cases c with
  | feed h p =>
    simp only [EngineCall.generated]
    rcases s.piece? h p with _ | ⟨t, i⟩
    · exact Nat.zero_le 3
    · simp only [feedAlerts]
      split_ifs <;> simp
  | fail h p e =>
    simp only [EngineCall.generated]
    rcases s.piece? h p with _ | ⟨t, i⟩ <;> simp
  | setDeadline h p deadline alert =>
    simp only [EngineCall.generated]
    rcases s.piece? h p with _ | ⟨t, i⟩
    · exact Nat.zero_le 3
    · dsimp only
      split_ifs <;> simp
  | finishChecking h | remove h =>
    simp only [EngineCall.generated]
    rcases s.torrent? h with _ | t <;> simp
  | _ => simp [EngineCall.generated]

/-! ### The deeds at which a callback is called -/

namespace Deed

/-- The deed finds the queue empty and leaves something in it, while somebody is registered. -/
def Fills (d : Deed) (s : Simulated) : Prop :=
  s.queue = [] ∧ (d.apply s).queue ≠ [] ∧ s.watcher.isSome = true

/-- The deed registers a callback while something is queued. -/
def ComesLate (d : Deed) (s : Simulated) : Prop := d = .watch ∧ s.queue ≠ []

instance (d : Deed) (s : Simulated) : Decidable (d.Fills s) :=
  inferInstanceAs (Decidable (_ ∧ _ ∧ _))

instance (d : Deed) (s : Simulated) : Decidable (d.ComesLate s) :=
  match d with
  | .watch => decidable_of_iff (s.queue ≠ []) (by simp [ComesLate])
  | .call _ | .applyMask _ | .unwatch | .hasAlerts | .takeAlerts => .isFalse nofun

end Deed

/-- The deeds of a history that meet a condition, each judged by the engine that it finds. -/
def moments (p : Deed → Simulated → Prop) [∀ d s, Decidable (p d s)] (s : Simulated)
    (deeds : List Deed) :
    List Deed :=
  collect (fun s d => if p d s then some d else none) s deeds

lemma length_moments_snoc (p : Deed → Simulated → Prop) [∀ d s, Decidable (p d s)] (s : Simulated)
    (deeds : List Deed) (d : Deed) : (moments p s (deeds ++ [d])).length =
      (moments p s deeds).length + if p d (s.after deeds) then 1 else 0 := by
  rw [moments, collect_snoc, List.length_append, moments]
  split_ifs <;> rfl

/-- What a deed does to the callbacks: it calls the one that is registered then, or none. -/
inductive Deed.Calls (s : Simulated) (d : Deed) : Prop where
  | calls (n : Nat) (when : d.Fills s ∧ ¬ d.ComesLate s ∨ d.ComesLate s ∧ ¬ d.Fills s)
      (registered : (d.apply s).watcher = some n) (called : (d.apply s).rung = n :: s.rung)
  | quiet (filled : ¬ d.Fills s) (late : ¬ d.ComesLate s) (called : (d.apply s).rung = s.rung)

theorem calls_deed {s : Simulated} (hs : s.notifySupported = true) (d : Deed) : d.Calls s := by
  cases d with
  | call c =>
    obtain ⟨slots, statusQueries, heq⟩ := apply_eq s c
    have hlate : ¬ (Deed.call c).ComesLate s := nofun
    by_cases hf : (Deed.call c).Fills s
    · obtain ⟨hq, hq', hw⟩ := hf
      obtain ⟨n, hn⟩ := Option.isSome_iff_exists.mp hw
      have haccepted : c.accepted s ≠ [] := fun h => hq' (by simp [Deed.apply, heq, hq, h])
      exact .calls n (.inl ⟨⟨hq, hq', hw⟩, hlate⟩) (by simp [Deed.apply, heq, hn])
        (by simp [Deed.apply, heq, rungAfter, hq, haccepted, hn])
    · refine .quiet hf hlate ?_
      simp only [Deed.apply, heq, rungAfter]
      split_ifs with hends
      · rcases hw : s.watcher with _ | n
        · rfl
        · exact absurd ⟨hends.1, by simp [Deed.apply, heq, hends.2], by simp [hw]⟩ hf
      · rfl
  | watch =>
    by_cases hq : s.queue = []
    · exact .quiet (fun hf => hf.2.1 (by simp [Deed.apply, Simulated.watch, hs, hq]))
        (fun h => h.2 hq) (by simp [Deed.apply, Simulated.watch, hs, hq])
    · exact .calls s.registrations (.inr ⟨⟨rfl, hq⟩, fun hf => hq hf.1⟩)
        (by simp [Deed.apply, Simulated.watch, hs, hq, ring])
        (by simp [Deed.apply, Simulated.watch, hs, hq, ring])
  | applyMask mask => exact .quiet (fun hf => hf.2.1 hf.1) nofun rfl
  | unwatch =>
    refine .quiet (fun hf => hf.2.1 ?_) nofun ?_ <;>
      simp only [Deed.apply, Simulated.unwatch, hs, if_true]
    exact hf.1
  | hasAlerts =>
    refine .quiet (fun hf => hf.2.1 ?_) nofun ?_ <;> rw [Deed.apply, Source.snd_hasAlerts]
    exact hf.1
  | takeAlerts => exact .quiet (fun hf => hf.2.1 rfl) nofun rfl

lemma notifySupported_after (waitSupported : Bool) (deeds : List Deed) :
    ((made true waitSupported).after deeds).notifySupported = true := by
  induction deeds using List.reverseRecOn with
  | nil => rfl
  | append_singleton deeds d ih =>
    rw [after_snoc]
    generalize (made true waitSupported).after deeds = s at ih
    cases d with
    | call c =>
      obtain ⟨slots, statusQueries, heq⟩ := apply_eq s c
      rw [Deed.apply, heq]
      exact ih
    | watch =>
      rw [Deed.apply, Simulated.watch, if_pos ih]
      dsimp only
      split_ifs <;> exact ih
    | unwatch =>
      rw [Deed.apply, Simulated.unwatch, if_pos ih]
      exact ih
    | hasAlerts =>
      rw [Deed.apply, Source.snd_hasAlerts]
      exact ih
    | applyMask | takeAlerts => exact ih

/-- **The calls of callbacks, counted**: one for every deed that ends an empty queue while somebody
is registered, and one for every callback that is registered late. -/
theorem length_rung_after (waitSupported : Bool) (deeds : List Deed) :
    ((made true waitSupported).after deeds).rung.length =
      (moments Deed.Fills (made true waitSupported) deeds).length +
        (moments Deed.ComesLate (made true waitSupported) deeds).length := by
  induction deeds using List.reverseRecOn with
  | nil => rfl
  | append_singleton deeds d ih =>
    rw [after_snoc, length_moments_snoc, length_moments_snoc]
    cases calls_deed (notifySupported_after waitSupported deeds) d with
    | calls n when registered called =>
      rw [called, List.length_cons, ih]
      rcases when with ⟨hf, hl⟩ | ⟨hl, hf⟩
      · rw [if_pos hf, if_neg hl]
        omega
      · rw [if_neg hf, if_pos hl]
        omega
    | quiet filled late called =>
      rw [called, ih, if_neg filled, if_neg late]
      rfl

/-! ### Nobody sleeps over a queue -/

/-- The deeds that put an end to what a callback was told: the queue is taken, or another callback,
or none, is registered. -/
def Deed.Overtakes (d : Deed) : Prop := d = .takeAlerts ∨ d = .watch ∨ d = .unwatch

/-- A deed of the history called the callback `n`, and nothing overtook that since. -/
def Awake (start : Simulated) (n : Nat) (deeds : List Deed) : Prop :=
  ∃ before d later, deeds = before ++ d :: later ∧
    (start.after (before ++ [d])).watcher = some n ∧
    (start.after (before ++ [d])).rung = n :: (start.after before).rung ∧ ∀ e ∈ later, ¬ e.Overtakes

lemma Awake.snoc {start : Simulated} {n : Nat} {deeds : List Deed}
    (h : Awake start n deeds) {d : Deed} (hd : ¬ d.Overtakes) : Awake start n (deeds ++ [d]) := by
  obtain ⟨before, e, later, rfl, hwatcher, hrung, hlater⟩ := h
  refine ⟨before, e, later ++ [d], by simp, hwatcher, hrung, fun e he => ?_⟩
  rcases List.mem_append.mp he with he | he
  · exact hlater e he
  · exact List.mem_singleton.mp he ▸ hd

/-- Where a deed calls nobody, a callback that has something to come for had it before. -/
lemma due_before {s : Simulated} (hs : s.notifySupported = true) {d : Deed} (hf : ¬ d.Fills s)
    (hl : ¬ d.ComesLate s) {n : Nat} (hn : (d.apply s).watcher = some n)
    (hq : (d.apply s).queue ≠ []) :
    s.watcher = some n ∧ s.queue ≠ [] ∧ ¬ d.Overtakes := by
  cases d with
  | call c =>
    obtain ⟨slots, statusQueries, heq⟩ := apply_eq s c
    have hw : s.watcher = some n := by simpa [Deed.apply, heq] using hn
    exact ⟨hw, fun hempty => hf ⟨hempty, hq, by simp [hw]⟩, by simp [Deed.Overtakes]⟩
  | applyMask mask => exact ⟨hn, hq, by simp [Deed.Overtakes]⟩
  | watch =>
    refine absurd ⟨rfl, fun hempty => hq ?_⟩ hl
    simp [Deed.apply, Simulated.watch, hs, hempty]
  | unwatch => simp [Deed.apply, Simulated.unwatch, hs] at hn
  | hasAlerts =>
    rw [Deed.apply, Source.snd_hasAlerts] at hn hq
    exact ⟨hn, hq, by simp [Deed.Overtakes]⟩
  | takeAlerts => exact absurd rfl hq

theorem awake_after (waitSupported : Bool) (deeds : List Deed) {n : Nat}
    (hn : ((made true waitSupported).after deeds).watcher = some n)
    (hq : ((made true waitSupported).after deeds).queue ≠ []) :
    Awake (made true waitSupported) n deeds := by
  induction deeds using List.reverseRecOn with
  | nil => exact absurd rfl hq
  | append_singleton deeds d ih =>
    have hs := notifySupported_after waitSupported deeds
    cases calls_deed hs d with
    | calls m when registered called =>
      rw [after_snoc, registered] at hn
      obtain rfl := Option.some.inj hn
      exact ⟨deeds, d, [], rfl, by rw [after_snoc, registered], by rw [after_snoc, called], by simp⟩
    | quiet filled late called =>
      rw [after_snoc] at hn hq
      obtain ⟨hn', hq', hd⟩ := due_before hs filled late hn hq
      exact (ih hn' hq').snoc hd

/-- **Callbacks of readiness are exact**, after every history of an engine that supports them:

* the callbacks were called as often as a deed found the queue empty and left something in it while
  somebody was registered, plus as often as a callback was registered while something was queued;
* any further deed calls the callback that is registered once, exactly in those two cases, and else
  nobody;
* a call posts up to three alerts, one after another, whichever of them the mask lets through; one
  of its posts at most tells that it ended an empty queue, and one does if there is no alert in the
  queue and one comes through;
* if a callback is registered and something is queued, then a deed called it, and since then nobody
  took the queue and no callback was registered or cleared. -/
theorem callbacks_exact (waitSupported : Bool) {deeds : List Deed} {s : Simulated}
    (hs : (made true waitSupported).after deeds = s) :
    s.rung.length = (moments Deed.Fills (made true waitSupported) deeds).length +
        (moments Deed.ComesLate (made true waitSupported) deeds).length ∧
      (∀ d : Deed, d.Calls s) ∧
      (∀ c : EngineCall, (c.generated s).length ≤ 3 ∧
        ∃ t : Simulated, (∃ slots statusQueries, t = { s with slots, statusQueries }) ∧
          c.apply s = signal (postAll (c.generated s) t).1 (postAll (c.generated s) t).2 ∧
          (postAll (c.generated s) t).1.count true =
            if s.queue = [] ∧ ∃ a ∈ c.generated s, s.accepts a then 1 else 0) ∧
      ∀ n, s.watcher = some n → s.queue ≠ [] → Awake (made true waitSupported) n deeds := by
  subst hs
  refine ⟨length_rung_after waitSupported deeds, calls_deed
    (notifySupported_after waitSupported deeds),
    fun c => ⟨length_generated_le _ c, ?_⟩, fun n => awake_after waitSupported deeds⟩
  obtain ⟨slots, statusQueries, heq⟩ := apply_eq_emit ((made true waitSupported).after deeds) c
  refine ⟨_, ⟨slots, statusQueries, rfl⟩, heq.trans (emit_eq_signal _ _), ?_⟩
  rw [count_postAll]
  refine if_congr (and_congr_right fun _ => ?_) rfl rfl
  rw [Ne, List.filter_eq_nil_iff]
  push Not
  rfl

/-- Somebody registers late, takes the alert, and is called again by a call that posts three alerts
of which two come through. -/
theorem callbacks_exact_late :
    ∃ (deeds : List Deed) (s : Simulated), (made true true).after deeds = s ∧
    s.rung.length = (moments Deed.Fills (made true true) deeds).length +
      (moments Deed.ComesLate (made true true) deeds).length ∧
    (moments Deed.Fills (made true true) deeds).length = 1 ∧
    (moments Deed.ComesLate (made true true) deeds).length = 1 ∧
    s.queue.length = 2 ∧ Awake (made true true) 0 deeds := by
  let deeds : List Deed :=
    [.call (.add "film" [[1]] .downloading), .call (.setDeadline ⟨0, 1⟩ ⟨0⟩ .zero true),
      .applyMask (.union [.sessionLog, .storage, .status]), .call (.log "early"), .watch,
      .takeAlerts, .call (.feed ⟨0, 1⟩ ⟨0⟩), .hasAlerts]
  obtain ⟨hlength, -, -, hawake⟩ := @callbacks_exact true deeds _ rfl
  exact ⟨deeds, _, rfl, hlength, by decide, by decide, by decide, hawake 0 (by decide) (by decide)⟩

end Simulated

end TorrentFlow
