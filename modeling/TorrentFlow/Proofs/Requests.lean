import TorrentFlow.Proofs.Collections
import TorrentFlow.Proofs.Journal.Replay

/-!
Read requests. A torrent keeps four things side by side: the bytes of its pieces, which pieces are
there, which carry a deadline, and whose bytes are to be told as soon as they come in. Whatever is
done to the engine keeps the four in step. So the bytes of a piece are told when somebody asks for
them: at once if the piece is there, and else once, when it comes in, unless they were let go
before.
-/

namespace TorrentFlow

structure SimulatedTorrent.Sound (t : SimulatedTorrent) : Prop where
  flags : t.available.length = t.payloads.length
  deadlines : ∀ p, t.deadlines.contains p = true → 0 ≤ p.index ∧ p.index < t.payloads.length
  requests : ∀ p ∈ t.readRequests, t.deadlines.contains p = true ∧ ¬ t.Downloaded p

namespace Simulated

/-! ### What becomes of one torrent -/

/-- What the torrent of a handle was before the last deed. -/
inductive Comes (h : Handle) (s : Simulated) : Deed → SimulatedTorrent → Prop
  | begun {d : Deed} (name : String) (payloads : List Payload) (state : TorrentState)
      (before : s.torrent? h = none) (given : d.given? s = some h) :
      Comes h s d (.fresh name payloads state)
  | called {c : EngineCall} {t t' : SimulatedTorrent} (handle : c.handle? = some h)
      (before : s.torrent? h = some t) (after : c.onTorrent t = some t') : Comes h s (.call c) t'
  | kept {d : Deed} {t : SimulatedTorrent} (before : s.torrent? h = some t)
      (aside : ∀ c, d = .call c → c.handle? ≠ some h) : Comes h s d t

lemma torrent?_insertTorrent_of_some {s : Simulated} {h : Handle} {t : SimulatedTorrent}
    (ht : s.torrent? h = some t) (name : String) (payloads : List Payload) (state : TorrentState) :
    (insertTorrent name payloads state s).2.torrent? h = some t := by
  obtain ⟨slot, hslot, hgen, htor⟩ := torrent?_eq_some.mp ht
  have hne : h.slot.toNat ≠ s.nextSlot := by
    intro heq
    rw [heq] at hslot
    rcases nextSlot_cases s with ⟨slot', hslot', hfree⟩ | hend
    · obtain rfl := Option.some.inj (hslot.symm.trans hslot')
      rw [hfree] at htor
      cases htor
    · rw [List.getElem?_eq_none_iff.mpr (Nat.le_of_eq hend.symm)] at hslot
      cases hslot
  refine torrent?_eq_some.mpr ⟨slot, ?_, hgen, htor⟩
  rw [slots_insertTorrent, if_neg hne, hslot]

theorem comes {s : Simulated} {d : Deed} {h : Handle} {t' : SimulatedTorrent}
    (ht' : (d.apply s).torrent? h = some t') : Comes h s d t' := by
  have hstill : (∀ c, d ≠ .call c) → Comes h s d t' := fun hd => by
    rw [torrent?_congr (slots_deed hd s)] at ht'
    exact .kept ht' fun c hc => absurd hc (hd c)
  cases d with
  | call c =>
    rcases hadd : c.isAdd with _ | _
    · rw [Deed.apply, EngineCall.torrent?_apply hadd] at ht'
      split_ifs at ht' with hh
      · obtain ⟨t, ht, hon⟩ := Option.bind_eq_some_iff.mp ht'
        exact .called hh ht hon
      · exact .kept ht' fun c' hc => by cases hc; exact hh
    · cases c with
      | add name payloads state =>
        rcases ht : s.torrent? h with _ | t
        · rcases torrent?_insertTorrent_cases ht' with ⟨rfl, rfl⟩ | hsome
          · exact .begun name payloads state ht rfl
          · rw [ht] at hsome
            cases hsome
        · -- a handle that has a torrent keeps it
          have hstay : (insertTorrent name payloads state s).2.torrent? h = some t :=
            torrent?_insertTorrent_of_some ht name payloads state
          obtain rfl := Option.some.inj (hstay.symm.trans ht')
          exact .kept ht fun c hc => by cases hc; simp [EngineCall.handle?]
      | _ => cases hadd
  | _ => exact hstill (by simp)

/-! ### Torrents stay in step -/

lemma sound_fresh (name : String) (payloads : List Payload) (state : TorrentState) :
    (SimulatedTorrent.fresh name payloads state).Sound where
  flags := by simp [SimulatedTorrent.fresh]
  deadlines p hp := by cases hp
  requests p hp := by cases hp

end Simulated

namespace EngineCall

open Simulated

/-- **Every call keeps what a torrent keeps of its pieces in step.** -/
lemma sound_onTorrent {c : EngineCall} {t t' : SimulatedTorrent} (h : t.Sound)
    (hon : c.onTorrent t = some t') : t'.Sound := by
  cases c with
  | remove => cases hon
  | feed g p =>
    rcases hp : t.position? p with _ | i <;> simp only [onTorrent, hp] at hon <;> cases hon
    · exact h
    · have hi : i < t.available.length := h.flags ▸ (position?_eq_some.mp hp).2
      refine ⟨(List.length_set ..).trans h.flags, h.deadlines, fun q hq => ?_⟩
      -- the piece that came in is not asked for any more
      obtain ⟨hmem, hne⟩ := OrderedSet.mem_erase.mp hq
      obtain ⟨hdue, hlack⟩ := h.requests q hmem
      exact ⟨hdue, fun hd => ((downloaded_fed hp hi).mp hd).elim hlack hne⟩
  | setDeadline g p deadline alert =>
    rcases hp : t.position? p with _ | i <;> simp only [onTorrent, hp] at hon <;> cases hon
    · exact h
    · refine ⟨h.flags, fun q hq => ?_, fun q hq => ?_⟩
      · rcases Table.contains_set.mp hq with rfl | hq
        · have := position?_eq_some.mp hp
          show 0 ≤ q.index ∧ q.index < t.payloads.length
          omega
        · exact h.deadlines q hq
      · -- only a piece that is not there joins those that were asked for before
        have hor : q ∈ t.readRequests ∨ q = p ∧ t.isAvailable i = false := by
          dsimp only at hq
          split_ifs at hq with hasked
          · simp only [Bool.and_eq_true, Bool.not_eq_true'] at hasked
            exact (OrderedSet.mem_insert.mp hq).symm.imp id fun e => ⟨e, hasked.2⟩
          · exact .inl hq
        rw [Table.contains_set]
        rcases hor with hmem | ⟨rfl, hlack⟩
        · exact ⟨.inr (h.requests q hmem).1, (h.requests q hmem).2⟩
        · refine ⟨.inl rfl, fun hd => ?_⟩
          obtain ⟨j, hj, hthere⟩ := hd
          obtain rfl := Option.some.inj (hp.symm.trans hj)
          cases hlack.symm.trans hthere
  | resetDeadline g p =>
    rcases hp : t.position? p with _ | i <;> simp only [onTorrent, hp] at hon <;> cases hon
    · exact h
    · refine ⟨h.flags, fun q hq => h.deadlines q (Table.contains_erase.mp hq).1, fun q hq => ?_⟩
      obtain ⟨hmem, hne⟩ := OrderedSet.mem_erase.mp hq
      exact ⟨Table.contains_erase.mpr ⟨(h.requests q hmem).1, hne⟩, (h.requests q hmem).2⟩
  | finishChecking =>
    cases hon
    exact ⟨h.flags, h.deadlines, h.requests⟩
  | _ =>
    cases hon
    exact h

lemma isAvailable_onTorrent {c : EngineCall} {t t' : SimulatedTorrent}
    (hon : c.onTorrent t = some t') {i : Nat} (hi : t.isAvailable i = true) :
    t'.isAvailable i = true := by
  cases c with
  | remove => cases hon
  | feed g p =>
    rcases hp : t.position? p with _ | j <;> simp only [onTorrent, hp] at hon <;> cases hon
    · exact hi
    · simp only [fed, SimulatedTorrent.isAvailable, List.getElem?_set] at hi ⊢
      split_ifs with hj hlt
      · rfl
      · rw [← hj, List.getElem?_eq_none_iff.mpr (by omega)] at hi
        cases hi
      · exact hi
  | setDeadline g p =>
    simp only [onTorrent] at hon
    split at hon <;> cases hon <;> exact hi
  | resetDeadline g p =>
    simp only [onTorrent] at hon
    split at hon <;> cases hon <;> exact hi
  | _ =>
    cases hon
    exact hi

end EngineCall

namespace Simulated

lemma Comes.sound {h : Handle} {s : Simulated} {d : Deed} {t' : SimulatedTorrent}
    (hc : Comes h s d t') (hs : ∀ t, s.torrent? h = some t → t.Sound) : t'.Sound := by
  cases hc with
  | begun name payloads state => exact sound_fresh name payloads state
  | called handle before after => exact EngineCall.sound_onTorrent (hs _ before) after
  | kept before => exact hs _ before

/-- **In every history each torrent's flags, deadlines and read requests are in step.** -/
theorem sound_after {start : Simulated} (hstart : start.slots = []) (deeds : List Deed) (h : Handle)
    (t : SimulatedTorrent) (ht : (start.after deeds).torrent? h = some t) : t.Sound := by
  induction deeds using List.reverseRecOn generalizing t with
  | nil => simp [torrent?, hstart] at ht
  | append_singleton deeds d ih =>
    rw [after_snoc] at ht
    exact (comes ht).sound ih

lemma stays_deed {s : Simulated} {h : Handle} {t : SimulatedTorrent}
    (ht : s.torrent? h = some t) {d : Deed} (hd : d ≠ .call (.remove h)) :
    ∃ t', (d.apply s).torrent? h = some t' ∧ t'.payloads = t.payloads ∧
      ∀ i, t.isAvailable i = true → t'.isAvailable i = true := by
  cases d with
  | call c =>
    rcases hadd : c.isAdd with _ | _
    · rw [Deed.apply, EngineCall.torrent?_apply hadd, ht]
      split_ifs with hh
      · have hne : c ≠ .remove h := fun hc => hd (congrArg Deed.call hc)
        obtain ⟨t', hon⟩ := Option.isSome_iff_exists.mp ((isSome_onTorrent hh t).mpr hne)
        exact ⟨t', hon, (EngineCall.payloads_onTorrent hon).1,
          fun i => EngineCall.isAvailable_onTorrent hon⟩
      · exact ⟨t, rfl, rfl, fun _ hi => hi⟩
    · cases c with
      | add name payloads state =>
        exact ⟨t, torrent?_insertTorrent_of_some ht name payloads state, rfl, fun _ hi => hi⟩
      | _ => cases hadd
  | _ => exact ⟨t, (torrent?_congr (slots_deed (by simp) s) h).trans ht, rfl, fun _ hi => hi⟩

lemma stays_after {s : Simulated} {h : Handle} {t : SimulatedTorrent} (ht : s.torrent? h = some t)
    {later : List Deed} (hl : .call (.remove h) ∉ later) :
    ∃ t', (s.after later).torrent? h = some t' ∧ t'.payloads = t.payloads ∧
      ∀ i, t.isAvailable i = true → t'.isAvailable i = true := by
  induction later using List.reverseRecOn with
  | nil => exact ⟨t, ht, rfl, fun _ hi => hi⟩
  | append_singleton later d ih =>
    rw [List.mem_append, List.mem_singleton, not_or] at hl
    obtain ⟨t', ht', hpay, hav⟩ := ih hl.1
    obtain ⟨t'', ht'', hpay', hav'⟩ := stays_deed ht' (Ne.symm hl.2)
    exact ⟨t'', by rw [after_snoc, ht''], hpay'.trans hpay, fun i hi => hav' i (hav i hi)⟩

/-! ### Pieces that are asked for -/

/-- The handle names a torrent that has the piece, and the piece is not there yet. -/
def Lacks (s : Simulated) (h : Handle) (p : Piece) : Prop :=
  ∃ t i, s.piece? h p = some (t, i) ∧ t.isAvailable i = false

/-- A deed ends the wait for the bytes of a piece: it comes in, its deadline is taken back, or the
handle begins to name a new torrent. -/
def Deed.Settles (h : Handle) (p : Piece) (s : Simulated) (d : Deed) : Prop :=
  d = .call (.feed h p) ∨ d = .call (.resetDeadline h p) ∨ s.torrent? h = none ∧ d.given? s = some h

/-- The bytes of a piece were asked for when it was not there, and the wait for them was not ended
since. -/
inductive Armed (start : Simulated) (h : Handle) (p : Piece) : List Deed → Prop
  | arms {deeds : List Deed} (deadline : Duration) (lacks : (start.after deeds).Lacks h p) :
      Armed start h p (deeds ++ [.call (.setDeadline h p deadline true)])
  | stays {deeds : List Deed} {d : Deed} (armed : Armed start h p deeds)
      (unsettled : ¬ d.Settles h p (start.after deeds)) : Armed start h p (deeds ++ [d])

lemma armed_snoc {start : Simulated} {h : Handle} {p : Piece} {deeds : List Deed} {d : Deed} :
    Armed start h p (deeds ++ [d]) ↔
      (∃ deadline, d = .call (.setDeadline h p deadline true) ∧ (start.after deeds).Lacks h p) ∨
        Armed start h p deeds ∧ ¬ d.Settles h p (start.after deeds) := by
  constructor
  · generalize hall : deeds ++ [d] = all
    intro harmed
    cases harmed with
    | arms deadline lacks =>
      obtain ⟨rfl, hd⟩ := List.append_inj' hall rfl
      exact .inl ⟨deadline, List.singleton_inj.mp hd, lacks⟩
    | stays armed unsettled =>
      obtain ⟨rfl, hd⟩ := List.append_inj' hall rfl
      obtain rfl := List.singleton_inj.mp hd
      exact .inr ⟨armed, unsettled⟩
  · rintro (⟨deadline, rfl, hlacks⟩ | ⟨harmed, hun⟩)
    · exact .arms deadline hlacks
    · exact .stays harmed hun

lemma lacks_iff {s : Simulated} {h : Handle} {t : SimulatedTorrent} {p : Piece} {i : Nat}
    (ht : s.torrent? h = some t) (hp : t.position? p = some i) :
    s.Lacks h p ↔ t.isAvailable i = false := by
  have hpiece : s.piece? h p = some (t, i) := piece?_eq_some.mpr ⟨ht, hp⟩
  constructor
  · rintro ⟨t', j, hpiece', hj⟩
    cases hpiece.symm.trans hpiece'
    exact hj
  · exact fun hi => ⟨t, i, hpiece, hi⟩

lemma not_lacks {s : Simulated} {h : Handle} {t : SimulatedTorrent} {p : Piece}
    (ht : s.torrent? h = some t) (hp : t.position? p = none) : ¬ s.Lacks h p := by
  rintro ⟨t', i, hpiece, -⟩
  obtain ⟨ht', hi⟩ := piece?_eq_some.mp hpiece
  cases ht.symm.trans ht'
  rw [hp] at hi
  cases hi

lemma mem_requests_onTorrent {s : Simulated} {h : Handle} {t t' : SimulatedTorrent} (hs : t.Sound)
    (ht : s.torrent? h = some t) {c : EngineCall} (hh : c.handle? = some h)
    (hon : c.onTorrent t = some t') (p : Piece) :
    p ∈ t'.readRequests ↔ (∃ deadline, c = .setDeadline h p deadline true ∧ s.Lacks h p) ∨
      p ∈ t.readRequests ∧ c ≠ .feed h p ∧ c ≠ .resetDeadline h p := by
  -- a piece that is asked for is one that the torrent has
  have hhas : t.position? p = none → p ∉ t.readRequests := fun hp hmem =>
    position?_eq_none.mp hp (hs.deadlines p (hs.requests p hmem).1)
  cases c with
  | remove => cases hon
  | feed g q =>
    obtain rfl := Option.some.inj hh
    rcases hq : t.position? q with _ | i <;> simp only [EngineCall.onTorrent, hq] at hon <;>
      cases hon
    · by_cases hpq : p = q
      · subst hpq
        simp [hhas hq]
      · simp [Ne.symm hpq]
    · -- the piece comes in, and its request is served
      show p ∈ t.readRequests.erase q ↔ _
      by_cases hpq : p = q
      · simp [hpq]
      · simp [hpq, Ne.symm hpq]
  | resetDeadline g q =>
    obtain rfl := Option.some.inj hh
    rcases hq : t.position? q with _ | i <;> simp only [EngineCall.onTorrent, hq] at hon <;>
      cases hon
    · by_cases hpq : p = q
      · subst hpq
        simp [hhas hq]
      · simp [Ne.symm hpq]
    · by_cases hpq : p = q
      · simp [hpq]
      · simp [hpq, Ne.symm hpq]
  | setDeadline g q deadline alert =>
    obtain rfl := Option.some.inj hh
    rcases hq : t.position? q with _ | i <;> simp only [EngineCall.onTorrent, hq] at hon <;>
      cases hon
    · by_cases hpq : p = q
      · subst hpq
        simp [not_lacks ht hq]
      · simp [Ne.symm hpq]
    · by_cases hpq : p = q
      · subst hpq
        rcases alert with _ | _ <;> rcases hi : t.isAvailable i with _ | _ <;>
          simp [lacks_iff ht hq, hi]
      · rcases alert with _ | _ <;> rcases hi : t.isAvailable i with _ | _ <;>
          simp [hpq, Ne.symm hpq]
  | finishChecking =>
    cases hon
    simp
  | _ => cases hh

/-- **The read requests of a torrent are the pieces whose bytes are waited for**, by its whole
history. -/
theorem mem_requests_after {start : Simulated} (hstart : start.slots = []) {deeds : List Deed}
    {h : Handle} {t : SimulatedTorrent} (ht : (start.after deeds).torrent? h = some t) (p : Piece) :
    p ∈ t.readRequests ↔ Armed start h p deeds := by
  induction deeds using List.reverseRecOn generalizing t with
  | nil => simp [torrent?, hstart] at ht
  | append_singleton deeds d ih =>
    rw [after_snoc] at ht
    rw [armed_snoc]
    cases comes ht with
    | begun name payloads state before given =>
      -- a torrent that begins has no requests, and no piece could be asked for before
      have hlacks : ¬ (start.after deeds).Lacks h p := by
        rintro ⟨t, i, hpiece, -⟩
        rw [(piece?_eq_some.mp hpiece).1] at before
        cases before
      refine iff_of_false (fun hmem => by cases hmem) ?_
      rintro (⟨deadline, -, hl⟩ | ⟨-, hun⟩)
      · exact hlacks hl
      · exact hun (.inr (.inr ⟨before, given⟩))
    | called handle before after =>
      rw [mem_requests_onTorrent (sound_after hstart deeds h _ before) before handle after,
        ih before]
      simp [Deed.Settles, before]
    | kept before aside =>
      have hcall : ∀ {c : EngineCall}, c.handle? = some h → d ≠ .call c :=
        fun hc hd => aside _ hd hc
      -- what is done to other torrents neither arms the piece nor settles it
      have hun : ¬ d.Settles h p (start.after deeds) := by
        rintro (hd | hd | ⟨hnone, -⟩)
        · exact hcall rfl hd
        · exact hcall rfl hd
        · rw [before] at hnone
          cases hnone
      rw [ih before]
      refine ⟨fun harmed => .inr ⟨harmed, hun⟩, ?_⟩
      rintro (⟨deadline, hd, -⟩ | ⟨harmed, -⟩)
      · exact absurd hd (hcall rfl)
      · exact harmed

/-! ### Bytes that are told -/

/-- The bytes of a piece are due: the piece comes in and they were waited for, or they are asked for
and the piece is there. -/
inductive Due (start : Simulated) (deeds : List Deed) (h : Handle) (p : Piece) (there : Bool) :
    Deed → Prop
  | awaited (armed : Armed start h p deeds) : Due start deeds h p there (.call (.feed h p))
  | atOnce (deadline : Duration) (available : there = true) :
      Due start deeds h p there (.call (.setDeadline h p deadline true))

lemma countP_generated_le (s : Simulated) (d : Deed) :
    (d.generated s).countP (fun a => decide (a.kind = .readPiece)) ≤ 1 := by
  cases d with
  | call c =>
    cases c with
    | feed h p =>
      rcases hp : s.piece? h p with _ | ⟨t, i⟩
      · simp [Deed.generated, EngineCall.generated, hp]
      · simp only [Deed.generated, EngineCall.generated, hp, feedAlerts]
        split_ifs <;> simp [Alert.kind]
    | setDeadline h p deadline alert =>
      rcases hp : s.piece? h p with _ | ⟨t, i⟩
      · simp [Deed.generated, EngineCall.generated, hp]
      · simp only [Deed.generated, EngineCall.generated, hp]
        split_ifs <;> simp [Alert.kind]
    | fail h p e =>
      rcases hp : s.piece? h p with _ | ⟨t, i⟩ <;>
        simp [Deed.generated, EngineCall.generated, hp, Alert.kind]
    | finishChecking h | remove h =>
      rcases ht : s.torrent? h with _ | t <;>
        simp [Deed.generated, EngineCall.generated, ht, Alert.kind]
    | _ => simp [Deed.generated, EngineCall.generated, Alert.kind]
  | _ => simp [Deed.generated]

lemma read_mem_feedAlerts {h g : Handle} {t : SimulatedTorrent} {p q : Piece} {i : Nat}
    {name : String} {bytes : Payload} {error : Option EngineError} :
    .readPiece h name p bytes error ∈ feedAlerts g t q i ↔
      q ∈ t.readRequests ∧ h = g ∧ name = t.name ∧ p = q ∧ bytes = t.payload i ∧ error = none := by
  rw [feedAlerts, List.mem_append, List.mem_append]
  by_cases hq : q ∈ t.readRequests
  · rw [if_pos (OrderedSet.contains_iff.mpr hq)]
    split_ifs <;> simp [hq]
  · rw [if_neg (mt OrderedSet.contains_iff.mp hq)]
    split_ifs <;> simp [hq]

/-- What a deed tells of the bytes of pieces, by the read requests of the moment. -/
lemma read_mem_generated {s : Simulated} {d : Deed} (hd : ∀ h p e, d ≠ .call (.fail h p e))
    {h : Handle} {name : String} {p : Piece} {bytes : Payload} {error : Option EngineError} :
    .readPiece h name p bytes error ∈ d.generated s ↔ error = none ∧ ∃ t i,
      s.piece? h p = some (t, i) ∧ t.name = name ∧ t.payload i = bytes ∧
        (d = .call (.feed h p) ∧ p ∈ t.readRequests ∨
          ∃ deadline, d = .call (.setDeadline h p deadline true) ∧ t.isAvailable i = true) := by
  cases d with
  | call c =>
    cases c with
    | feed g q =>
      simp only [Deed.generated, EngineCall.generated]
      rcases hq : s.piece? g q with _ | ⟨t, i⟩
      · simp only [List.not_mem_nil, false_iff]
        rintro ⟨-, t, i, hp, -, -, ⟨heq, -⟩ | ⟨deadline, heq, -⟩⟩ <;> cases heq
        rw [hq] at hp
        cases hp
      · simp only [read_mem_feedAlerts]
        constructor
        · rintro ⟨hmem, rfl, rfl, rfl, rfl, rfl⟩
          exact ⟨rfl, t, i, hq, rfl, rfl, .inl ⟨rfl, hmem⟩⟩
        · rintro ⟨rfl, t', i', hp, rfl, rfl, ⟨heq, hmem⟩ | ⟨deadline, heq, -⟩⟩ <;> cases heq
          rw [hq] at hp
          cases hp
          exact ⟨hmem, rfl, rfl, rfl, rfl, rfl⟩
    | setDeadline g q deadline alert =>
      simp only [Deed.generated, EngineCall.generated]
      rcases hq : s.piece? g q with _ | ⟨t, i⟩
      · simp only [List.not_mem_nil, false_iff]
        rintro ⟨-, t, i, hp, -, -, ⟨heq, -⟩ | ⟨deadline, heq, -⟩⟩ <;> cases heq
        rw [hq] at hp
        cases hp
      · constructor
        · intro hmem
          dsimp only at hmem
          split_ifs at hmem with hthere
          · obtain ⟨rfl, hi⟩ := Bool.and_eq_true_iff.mp hthere
            cases List.mem_singleton.mp hmem
            exact ⟨rfl, t, i, hq, rfl, rfl, .inr ⟨deadline, rfl, hi⟩⟩
          · cases hmem
        · rintro ⟨rfl, t', i', hp, rfl, rfl, ⟨heq, -⟩ | ⟨deadline', heq, hi⟩⟩ <;> cases heq
          rw [hq] at hp
          cases hp
          simp [hi]
    | fail g q e => exact absurd rfl (hd g q e)
    | finishChecking g | remove g =>
      rcases ht : s.torrent? g with _ | t <;> simp [Deed.generated, EngineCall.generated, ht]
    | _ => simp [Deed.generated, EngineCall.generated]
  | _ => simp [Deed.generated]

/-- **The torrents of the engine are in step, and bytes are told as they are asked for**, in every
history:

* every torrent has a flag for each piece, deadlines on pieces that it has, and read requests on
  pieces that carry a deadline and are not there;
* while a torrent is not removed it keeps its pieces, and those that are there stay there;
* a deed that does not report a failed read puts the bytes of at most one piece at the end of the
  queue, and if the mask lets them through, it does so exactly if they are due: the piece comes in,
  and its bytes were asked for when it was not there and were not settled since; or they are asked
  for and the piece is there. -/
theorem bytes_as_asked (notifySupported waitSupported : Bool) {deeds : List Deed} {s : Simulated}
    (hs : (made notifySupported waitSupported).after deeds = s) :
    (∀ h t, s.torrent? h = some t → t.Sound) ∧
      (∀ h t later, s.torrent? h = some t → .call (.remove h) ∉ later →
        ∃ t', (s.after later).torrent? h = some t' ∧ t'.payloads = t.payloads ∧
          ∀ i, t.isAvailable i = true → t'.isAvailable i = true) ∧
      ∀ d : Deed, s.mask.intersects .storage = true → (∀ h p e, d ≠ .call (.fail h p e)) →
        ((d.taken? s).toList).flatten ++ (d.apply s).queue = s.queue ++ d.recorded s ∧
          (d.recorded s).countP (fun a => decide (a.kind = .readPiece)) ≤ 1 ∧
          ∀ h name p bytes error, .readPiece h name p bytes error ∈ d.recorded s ↔ error = none ∧
            ∃ t i, s.piece? h p = some (t, i) ∧ t.name = name ∧ t.payload i = bytes ∧
              Due (made notifySupported waitSupported) deeds h p (t.isAvailable i) d := by
  subst hs
  refine ⟨sound_after rfl deeds, fun h t later ht hl => stays_after ht hl, fun d hmask hd =>
    ⟨taken_queue_deed _ d, ?_, fun h name p bytes error => ?_⟩⟩
  · exact Nat.le_trans (List.filter_sublist.countP_le) (countP_generated_le _ d)
  · rw [Deed.recorded, List.mem_filter, read_mem_generated hd]
    refine ⟨fun hread => ?_, fun ⟨herr, t, i, hp, hname, hbytes, hdue⟩ => ?_⟩
    · -- the requests of the moment are what the history armed and did not settle
      obtain ⟨⟨herr, t, i, hp, hname, hbytes, hwhy⟩, -⟩ := hread
      refine ⟨herr, t, i, hp, hname, hbytes, ?_⟩
      rcases hwhy with ⟨rfl, hmem⟩ | ⟨deadline, rfl, hi⟩
      · exact .awaited ((mem_requests_after rfl (piece?_eq_some.mp hp).1 p).mp hmem)
      · exact .atOnce deadline hi
    · refine ⟨⟨herr, t, i, hp, hname, hbytes, ?_⟩, hmask⟩
      cases hdue with
      | awaited armed =>
        exact .inl ⟨rfl, (mem_requests_after rfl (piece?_eq_some.mp hp).1 p).mpr armed⟩
      | atOnce deadline available => exact .inr ⟨deadline, rfl, available⟩

/-- Two pieces of which one is asked for: its bytes are told when it comes in, those of the other
are not, and they are told at once when they are asked for again. -/
theorem bytes_as_asked_twice : ∃ (deeds : List Deed) (s s' : Simulated) (t : SimulatedTorrent),
    (made true true).after deeds = s ∧ (Deed.call (.feed ⟨0, 1⟩ ⟨1⟩)).apply s = s' ∧
      s.torrent? ⟨0, 1⟩ = some t ∧ t.Sound ∧ Armed (made true true) ⟨0, 1⟩ ⟨1⟩ deeds ∧
      .readPiece ⟨0, 1⟩ "film" ⟨1⟩ [2] none ∈ (Deed.call (.feed ⟨0, 1⟩ ⟨1⟩)).recorded s ∧
      .readPiece ⟨0, 1⟩ "film" ⟨0⟩ [1] none ∉ (Deed.call (.feed ⟨0, 1⟩ ⟨0⟩)).recorded s ∧
      (∃ t', s'.torrent? ⟨0, 1⟩ = some t' ∧ t'.payloads = t.payloads) ∧
      .readPiece ⟨0, 1⟩ "film" ⟨1⟩ [2] none ∈
        (Deed.call (.setDeadline ⟨0, 1⟩ ⟨1⟩ .zero true)).recorded s' := by
  let asked : List Deed := [.applyMask .storage, .call (.add "film" [[1], [2]] .downloading)]
  let deeds : List Deed := asked ++ [.call (.setDeadline ⟨0, 1⟩ ⟨1⟩ .zero true)]
  have harmed : Armed (made true true) ⟨0, 1⟩ ⟨1⟩ deeds := .arms _ ⟨_, 1, rfl, rfl⟩
  obtain ⟨hsound, hstays, htold⟩ := @bytes_as_asked true true deeds _ rfl
  obtain ⟨-, -, htold'⟩ := @bytes_as_asked true true (deeds ++ [.call (.feed ⟨0, 1⟩ ⟨1⟩)]) _ rfl
  obtain ⟨t', ht', hpay, -⟩ := hstays ⟨0, 1⟩ _ [.call (.feed ⟨0, 1⟩ ⟨1⟩)] rfl (by simp)
  refine ⟨deeds, _, _, _, rfl, rfl, rfl, hsound ⟨0, 1⟩ _ rfl, harmed, ?_, ?_, ⟨t', ht', hpay⟩, ?_⟩
  · exact ((htold _ (by decide) (by simp)).2.2 _ _ _ _ _).mpr
      ⟨rfl, _, 1, rfl, rfl, rfl, .awaited harmed⟩
  · decide
  · exact ((htold' _ (by decide) (by simp)).2.2 _ _ _ _ _).mpr
      ⟨rfl, _, 1, rfl, rfl, rfl, .atOnce .zero rfl⟩

end Simulated

end TorrentFlow
