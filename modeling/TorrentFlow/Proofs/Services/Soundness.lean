import TorrentFlow.Proofs.Services.Attending

/-!
What the engine tells is true, wherever it has got to: the bytes in an alert are those that the
torrent was added with, and an error in one is an error that occurred. And every reader has what it
needs: a subscription of its own for what happens to its torrent, and a window that is its
torrent's.
-/

namespace TorrentFlow

open Delivery (Note)

variable {added added' : Handle → List Payload → Prop}
  {faults faults' : Handle → Piece → EngineError → Prop}

/-- What came in for a piece is what the torrent was added with, or an error that occurred there. -/
def Genuine (added : Handle → List Payload → Prop) (faults : Handle → Piece → EngineError → Prop)
    (h : Handle) (q : Piece) : Except EngineError Payload → Prop
  | .ok data => ∃ payloads i, added h payloads ∧ q.position? = some i ∧ payloads[i]? = some data
  | .error e => faults h q e

def Honest (added : Handle → List Payload → Prop) (faults : Handle → Piece → EngineError → Prop) :
    Alert → Prop
  | .readPiece h _ q data none => Genuine added faults h q (.ok data)
  | .readPiece h _ q _ (some e) => Genuine added faults h q (.error e)
  | _ => True

lemma Genuine.mono {h : Handle} {q : Piece} {x : Except EngineError Payload}
    (hx : Genuine added faults h q x) (ha : ∀ g payloads, added g payloads → added' g payloads)
    (hf : ∀ g x e, faults g x e → faults' g x e) : Genuine added' faults' h q x := by
  rcases x with e | data
  · exact hf h q e hx
  · obtain ⟨payloads, i, hadd, hi, hdata⟩ := hx
    exact ⟨payloads, i, ha h payloads hadd, hi, hdata⟩

lemma Honest.mono {a : Alert} (h : Honest added faults a)
    (ha : ∀ g payloads, added g payloads → added' g payloads)
    (hf : ∀ g x e, faults g x e → faults' g x e) : Honest added' faults' a := by
  cases a with
  | readPiece g name q data error =>
    rcases error with _ | e
    · exact Genuine.mono (x := .ok data) h ha hf
    · exact hf g q e h
  | _ => trivial

/-- What a call brings up is accounted for. -/
def Covered (added : Handle → List Payload → Prop) (faults : Handle → Piece → EngineError → Prop)
    (s : Simulated) : EngineCall → Prop
  | .add _ payloads _ => added s.nextHandle payloads
  | .fail h q e => faults h q e
  | _ => True

lemma covered_of_isTending {s : Simulated} {c : EngineCall} (h : c.isTending = true) :
    Covered added faults s c := by
  cases c <;> trivial

namespace Simulated

lemma Known.covered {s : Simulated} (h : Known added s) {c : EngineCall}
    (hc : Covered added faults s c) : Known added (c.apply s) := by
  cases c with
  | add name payloads state => exact h.insertTorrent hc
  | _ => exact h.apply rfl

lemma genuine_payload {s : Simulated} (hk : Known added s) {h : Handle} {q : Piece}
    {t : SimulatedTorrent} {i : Nat} (hp : s.piece? h q = some (t, i)) :
    Genuine added faults h q (.ok (t.payload i)) := by
  obtain ⟨ht, hi⟩ := piece?_eq_some.mp hp
  obtain ⟨hpos, hlt⟩ := Option.filter_eq_some_iff.mp hi
  have hlt : i < t.payloads.length := by simpa using hlt
  refine ⟨t.payloads, i, (hk h t ht).1, hpos, ?_⟩
  simp [SimulatedTorrent.payload, hlt]

/-- **The engine tells the truth.** -/
theorem honest_generated {s : Simulated} (hk : Known added s) {c : EngineCall}
    (hc : Covered added faults s c) : ∀ a ∈ c.generated s, Honest added faults a := by
  intro a ha
  cases c with
  | add name payloads state =>
    simp only [EngineCall.generated, List.mem_cons, List.not_mem_nil, or_false] at ha
    rcases ha with rfl | rfl <;> trivial
  | finishChecking h =>
    rcases ht : s.torrent? h with _ | t <;> simp only [EngineCall.generated, ht] at ha
    · cases ha
    · simp only [List.mem_cons, List.not_mem_nil, or_false] at ha
      rcases ha with rfl | rfl <;> trivial
  | remove h =>
    rcases ht : s.torrent? h with _ | t <;> simp only [EngineCall.generated, ht] at ha
    · cases ha
    · rw [List.mem_singleton.mp ha]
      trivial
  | feed h q =>
    rcases hp : s.piece? h q with _ | ⟨t, i⟩ <;> simp only [EngineCall.generated, hp] at ha
    · cases ha
    · simp only [feedAlerts, List.mem_append, List.mem_singleton, List.mem_ite_nil_right] at ha
      rcases ha with (rfl | ⟨-, rfl⟩) | ⟨-, rfl⟩
      · trivial
      · show Genuine added faults h q (.ok (t.payload i))
        exact genuine_payload hk hp
      · trivial
  | fail h q e =>
    rcases hp : s.piece? h q with _ | ⟨t, i⟩ <;> simp only [EngineCall.generated, hp] at ha
    · cases ha
    · rw [List.mem_singleton.mp ha]
      exact hc
  | log text =>
    rw [List.mem_singleton.mp ha]
    trivial
  | setDeadline h q deadline alert =>
    rcases hp : s.piece? h q with _ | ⟨t, i⟩ <;> simp only [EngineCall.generated, hp] at ha
    · cases ha
    · rw [List.mem_ite_nil_right, List.mem_singleton] at ha
      obtain ⟨-, rfl⟩ := ha
      show Genuine added faults h q (.ok (t.payload i))
      exact genuine_payload hk hp
  | _ => cases ha

end Simulated

namespace Services

/-- An alert that the engine accepted and nobody has taken out of a mailbox yet. -/
def InPlay (p : Pipeline Simulated) (a : Alert) : Prop :=
  a ∈ Delivery.undelivered p ∨
    ∃ id s, p.hub.subscriptions.get? id = some s ∧ a ∈ s.mailbox.queue

lemma inPlay_step {p q : Pipeline Simulated} {note : Note} (h : Delivery.Inv p)
    (hstep : Delivery.Step p note q) {a : Alert} (ha : InPlay q a) :
    InPlay p a ∨ a ∈ note.accepted := by
  have hev := Delivery.step_evolves h hstep
  rcases ha with ha | ⟨id, s', hs', ha⟩
  · exact (hev.undelivered a ha).imp Or.inl fun h => h
  · left
    rcases hs : p.hub.subscriptions.get? id with _ | s
    · rw [(hev.new id s' hs' hs).2.queue] at ha
      cases ha
    · rcases (hev.grown id s s' hs hs').queue a ha with ha | ⟨ha, -⟩
      · exact Or.inr ⟨id, s, hs, ha⟩
      · exact Or.inl ha

/-- What somebody gets was in play. -/
lemma inPlay_of_poll {p : Pipeline Simulated} {sub : Nat} {a : Alert}
    (hp : (p.pollSubscription sub).1 = some (.ok a)) : InPlay p a := by
  rw [Pipeline.pollSubscription_fst, Hub.poll_fst] at hp
  obtain ⟨s, hs, hlook⟩ := Option.bind_eq_some_iff.mp hp
  refine Or.inr ⟨sub, s, hs, ?_⟩
  rw [(Mailbox.looked_poll s.mailbox p.hub.busy).queue, hlook]
  exact List.mem_append_left _ (List.mem_singleton_self a)

/-- Everything that is told is true, and is told to those whom it concerns. -/
structure Sound (added : Handle → List Payload → Prop)
    (faults : Handle → Piece → EngineError → Prop) (p : Pipeline Simulated) : Prop where
  inv : Delivery.Inv p
  known : p.engine.Known added
  honest : ∀ a, InPlay p a → Honest added faults a
  fits : ∀ id s a, p.hub.subscriptions.get? id = some s → a ∈ s.mailbox.queue →
    s.filter.accepts a = true

/-- **A step of delivery tells nothing but the truth.** -/
theorem sound_step {p q : Pipeline Simulated} {note : Note} (h : Sound added faults p)
    (ha : ∀ g payloads, added g payloads → added' g payloads)
    (hf : ∀ g x e, faults g x e → faults' g x e) (hstep : Delivery.Step p note q)
    (hcall : ∀ c, note = .called p.engine c → Covered added' faults' p.engine c) :
    Sound added' faults' q := by
  have hev := Delivery.step_evolves h.inv hstep
  have hknown := h.known.mono ha
  refine ⟨Delivery.step_inv h.inv hstep, ?_, fun a hq => ?_, fun id s' a hs' hmem => ?_⟩
  · rcases Delivery.step_slots hstep with ⟨c, hn, rfl⟩ | hslots
    · exact hknown.covered (hcall c hn)
    · intro g t ht
      exact hknown g t ((Simulated.torrent?_congr hslots g).symm.trans ht)
  · -- an alert was there before, or a call has just put it on the queue
    rcases inPlay_step h.inv hstep hq with hp | hacc
    · exact (h.honest a hp).mono ha hf
    · rcases note with ⟨engine, c⟩ | _ | _ | _ | _
      · obtain rfl : engine = p.engine := by cases hstep; rfl
        have hmem : a ∈ (c.generated p.engine).filter p.engine.accepts := hacc
        exact Simulated.honest_generated hknown (hcall c rfl) a (List.mem_filter.mp hmem).1
      all_goals cases hacc
  · rcases hs : p.hub.subscriptions.get? id with _ | s
    · rw [(hev.new id s' hs' hs).2.queue] at hmem
      cases hmem
    · have hgrown := hev.grown id s s' hs hs'
      have hfilter : s'.filter = s.filter := congrArg (fun t => t.1) hgrown.terms
      rw [hfilter]
      rcases hgrown.queue a hmem with hmem | ⟨-, hacc⟩
      · exact h.fits id s a hs hmem
      · exact hacc

/-- No more is called than what brings up nothing new. -/
def Discreet : Note → Prop
  | .called _ call => call.isTending = true
  | _ => True

lemma Own.discreet {sub : Nat} {note : Note} (h : Own sub note) : Discreet note := by
  cases note <;> first | exact h | trivial

theorem sound_run {p q : Pipeline Simulated} {notes : List Note} (h : Sound added faults p)
    (hrun : Delivery.Run p notes q) (hd : ∀ note ∈ notes, Discreet note) :
    Sound added faults q := by
  induction hrun with
  | nil => exact h
  | @snoc q r trace note _ hstep ih =>
    refine sound_step (ih fun n hn => hd n (List.mem_append_left _ hn)) (fun _ _ h => h)
      (fun _ _ _ h => h) hstep fun c hc => covered_of_isTending ?_
    have := hd note (List.mem_append_right _ (List.mem_singleton_self note))
    rw [hc] at this
    exact this
  | aside _ _ _ _ _ _ _ _ ih =>
    obtain ⟨hinv, hknown, hhonest, hfits⟩ := ih hd
    exact ⟨⟨hinv.hub, hinv.served, hinv.single, hinv.ending, hinv.balanced, hinv.told⟩, hknown,
      hhonest, hfits⟩

end Services

end TorrentFlow
