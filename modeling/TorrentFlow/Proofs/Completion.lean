import TorrentFlow.Proofs.Requests

/-!
Finished torrents. Two calls set the state of a torrent whose pieces are known: a piece that comes
in finishes the torrent if it was the last one, and the end of a check makes it a torrent that is
being downloaded, whatever of it is there. So a torrent that has all its pieces is finished unless
it was checked after they had come, and then it stays unfinished until one of them comes once more.
-/

namespace TorrentFlow.Simulated

/-! ### Checks and pieces in the history of a handle -/

def Deed.AddsAsOffered (d : Deed) : Prop :=
  ∀ name payloads state, d = .call (.add name payloads state) → state = .downloading ∨
    state = .checkingFiles

/-- A deed looks anew whether all is there: a piece of the torrent comes in, or the handle begins to
name a new torrent. -/
def Deed.Recounts (h : Handle) (s : Simulated) (d : Deed) : Prop :=
  (∃ p, d = .call (.feed h p) ∧ s.piece? h p ≠ none) ∨ s.torrent? h = none ∧ d.given? s = some h

/-- The torrent's check was ended, and nobody has looked since whether all of it is there. -/
inductive Reopened (start : Simulated) (h : Handle) : List Deed → Prop
  | checked {deeds : List Deed} (tracked : (start.after deeds).torrent? h ≠ none) :
      Reopened start h (deeds ++ [.call (.finishChecking h)])
  | stays {deeds : List Deed} {d : Deed} (reopened : Reopened start h deeds)
      (aside : ¬ d.Recounts h (start.after deeds)) : Reopened start h (deeds ++ [d])

lemma reopened_snoc {start : Simulated} {h : Handle} {deeds : List Deed} {d : Deed} :
    Reopened start h (deeds ++ [d]) ↔
      (d = .call (.finishChecking h) ∧ (start.after deeds).torrent? h ≠ none) ∨
        Reopened start h deeds ∧ ¬ d.Recounts h (start.after deeds) := by
  constructor
  · generalize hall : deeds ++ [d] = all
    intro hreopened
    cases hreopened with
    | checked tracked =>
      obtain ⟨rfl, hd⟩ := List.append_inj' hall rfl
      exact .inl ⟨List.singleton_inj.mp hd, tracked⟩
    | stays reopened aside =>
      obtain ⟨rfl, hd⟩ := List.append_inj' hall rfl
      obtain rfl := List.singleton_inj.mp hd
      exact .inr ⟨reopened, aside⟩
  · rintro (⟨rfl, htracked⟩ | ⟨hreopened, haside⟩)
    · exact .checked htracked
    · exact .stays hreopened haside

lemma reopened_aside {start : Simulated} {h : Handle} {deeds : List Deed} {d : Deed}
    (hcheck : d ≠ .call (.finishChecking h)) (hcount : ¬ d.Recounts h (start.after deeds)) :
    Reopened start h (deeds ++ [d]) ↔ Reopened start h deeds := by
  simp [reopened_snoc, hcheck, hcount]

/-! ### States and flags -/

/-- The state of a torrent goes by what is there of it, unless it was reopened. -/
structure Stands (reopened : Prop) (t : SimulatedTorrent) : Prop where
  offered : t.state = .checkingFiles ∨ t.state = .downloading ∨ t.state = .finished
  finished : t.payloads ≠ [] → (t.state = .finished ↔ t.available.all id = true ∧ ¬ reopened)

lemma Stands.congr {reopened reopened' : Prop} {t t' : SimulatedTorrent} (h : Stands reopened t)
    (hr : reopened' ↔ reopened) (payloads : t'.payloads = t.payloads)
    (available : t'.available = t.available) (state : t'.state = t.state) :
    Stands reopened' t' where
  offered := by rw [state]; exact h.offered
  finished := by rw [payloads, available, state, hr]; exact h.finished

lemma stands_fresh {state : TorrentState} (hstate : state = .downloading ∨ state = .checkingFiles)
    (reopened : Prop) (name : String) (payloads : List Payload) :
    Stands reopened (.fresh name payloads state) where
  offered := hstate.elim (fun h => .inr (.inl h)) .inl
  finished hne := by
    obtain ⟨payload, rest, rfl⟩ := List.exists_cons_of_ne_nil hne
    rcases hstate with rfl | rfl <;> simp [SimulatedTorrent.fresh]

lemma Stands.fed {reopened : Prop} {t : SimulatedTorrent} (h : Stands reopened t) {reopened' : Prop}
    (hr : ¬ reopened') (p : Piece) (i : Nat) : Stands reopened' (fed t p i) := by
  by_cases hall : (t.available.set i true).all id = true
  · have hstate : (Simulated.fed t p i).state = .finished := if_pos hall
    exact ⟨.inr (.inr hstate), fun _ => iff_of_true hstate ⟨hall, hr⟩⟩
  · have hstate : (Simulated.fed t p i).state = t.state := if_neg hall
    refine ⟨by rw [hstate]; exact h.offered, fun hne => iff_of_false (fun hfin => hall ?_)
      fun hc => hall hc.1⟩
    obtain ⟨hthere, -⟩ := (h.finished hne).mp (hstate ▸ hfin)
    rw [List.all_eq_true] at hthere ⊢
    intro b hb
    rcases List.mem_or_eq_of_mem_set hb with hold | rfl
    · exact hthere b hold
    · rfl

section History

variable {start : Simulated} {h : Handle} {deeds : List Deed} {t t' : SimulatedTorrent}

/-- **What every call about a torrent keeps.** -/
lemma Stands.called (hs : Stands (Reopened start h deeds) t)
    (ht : (start.after deeds).torrent? h = some t) {c : EngineCall} (hh : c.handle? = some h)
    (hon : c.onTorrent t = some t') :
    Stands (Reopened start h (deeds ++ [.call c])) t' := by
  -- a call that neither brings a piece in nor ends a check is no matter
  have haside : c ≠ .finishChecking h → (∀ p, c = .feed h p → t.position? p = none) →
      (Reopened start h (deeds ++ [.call c]) ↔ Reopened start h deeds) := by
    refine fun hcheck hmiss => reopened_aside (fun hd => hcheck (Deed.call.inj hd)) ?_
    rintro (⟨p, hd, hpiece⟩ | ⟨hnone, -⟩)
    · obtain ⟨⟨t₀, i⟩, hsome⟩ := Option.ne_none_iff_exists'.mp hpiece
      obtain ⟨ht₀, hi⟩ := piece?_eq_some.mp hsome
      obtain rfl := Option.some.inj (ht.symm.trans ht₀)
      rw [hmiss p (Deed.call.inj hd)] at hi
      cases hi
    · rw [ht] at hnone
      cases hnone
  cases c with
  | remove => cases hon
  | finishChecking g =>
    obtain rfl := Option.some.inj hh
    cases hon
    refine ⟨.inr (.inl rfl), fun _ => iff_of_false (by simp) fun hc => hc.2 (.checked ?_)⟩
    simp [ht]
  | feed g p =>
    obtain rfl := Option.some.inj hh
    rcases hp : t.position? p with _ | i <;> simp only [EngineCall.onTorrent, hp] at hon <;>
      cases hon
    · exact hs.congr (haside (by simp) fun q hq => by cases hq; exact hp) rfl rfl rfl
    · refine hs.fed ?_ p i
      rw [reopened_snoc]
      rintro (⟨hd, -⟩ | ⟨-, hn⟩)
      · cases hd
      · exact hn (.inl ⟨p, rfl, by simp [piece?_eq_some.mpr ⟨ht, hp⟩]⟩)
  | setDeadline g p =>
    simp only [EngineCall.onTorrent] at hon
    split at hon <;> cases hon <;> exact hs.congr (haside (by simp) (by simp)) rfl rfl rfl
  | resetDeadline g p =>
    simp only [EngineCall.onTorrent] at hon
    split at hon <;> cases hon <;> exact hs.congr (haside (by simp) (by simp)) rfl rfl rfl
  | _ => cases hh

/-- **In every history the state of a torrent goes by what is there of it, unless it was
reopened.** -/
theorem stands_after (hstart : start.slots = []) (hoffered : ∀ d ∈ deeds, d.AddsAsOffered)
    (ht : (start.after deeds).torrent? h = some t) : Stands (Reopened start h deeds) t := by
  induction deeds using List.reverseRecOn generalizing t with
  | nil => simp [torrent?, hstart] at ht
  | append_singleton deeds d ih =>
    rw [after_snoc] at ht
    have hold : ∀ {t}, (start.after deeds).torrent? h = some t →
        Stands (Reopened start h deeds) t :=
      ih fun d' hd' => hoffered d' (List.mem_append_left _ hd')
    cases comes ht with
    | begun name payloads state before given =>
      rcases d.add_or (start.after deeds) with ⟨name', payloads', state', rfl⟩ | ⟨hnone, -⟩
      · rcases torrent?_insertTorrent_cases ht with ⟨-, hfresh⟩ | hsome
        · rw [hfresh]
          exact stands_fresh (hoffered _ (by simp) name' payloads' state' rfl) _ _ _
        · rw [before] at hsome
          cases hsome
      · rw [hnone] at given
        cases given
    | called handle before after => exact (hold before).called before handle after
    | kept before aside =>
      refine (hold before).congr (reopened_aside (fun hd => aside _ hd rfl) ?_) rfl rfl rfl
      rintro (⟨p, hd, -⟩ | ⟨hnone, -⟩)
      · exact aside _ hd rfl
      · rw [before] at hnone
        cases hnone

end History

/-! ### What a status query answers -/

/-- **Status and bitmap agree but for a check that ends late.** Whatever is done to the engine, in
any order, with torrents that are added in the ways that it offers: of a torrent whose pieces are
known and that has any, a status query answers either that it is finished or that it is being
downloaded. It is finished exactly if every piece is there and the torrent was not reopened, that is
if no check of it was ended since it was looked at last whether all is there. -/
theorem finished_iff_complete (notifySupported waitSupported : Bool) {deeds : List Deed}
    (hoffered : ∀ d ∈ deeds, d.AddsAsOffered) {h : Handle} {st : TorrentStatus}
    (hst : (Engine.status h ((made notifySupported waitSupported).after deeds)).1 = .ok st)
    (hknown : st.available ≠ []) :
    (st.state = .finished ∨ st.state = .downloading) ∧
      (st.state = .finished ↔ (∀ there ∈ st.available, there = true) ∧
        ¬ Reopened (made notifySupported waitSupported) h deeds) := by
  have hanswer := hst.symm.trans (fst_status h true _)
  rcases ht : ((made notifySupported waitSupported).after deeds).torrent? h with _ | t <;>
    rw [ht] at hanswer
  · cases hanswer
  obtain rfl := Except.ok.inj hanswer
  have hstands := stands_after rfl hoffered ht
  have hflags := (whole_after notifySupported waitSupported deeds h t ht).2
  rcases hk : t.state.piecesKnown with _ | _
  · simp [hk] at hknown
  · simp only [hk, Bool.and_self, if_true] at hknown ⊢
    have hne : t.payloads ≠ [] :=
      fun hnil => hknown (List.length_eq_zero_iff.mp (by simp [hflags, hnil]))
    refine ⟨?_, ?_⟩
    · rcases hstands.offered with hstate | hstate | hstate
      · rw [hstate] at hk
        cases hk
      · exact .inr hstate
      · exact .inl hstate
    · simpa using hstands.finished hne

/-- A torrent is checked while its first piece comes in. When the second one comes its check has
ended, and it is finished and was not reopened. -/
theorem finished_iff_complete_rechecked : ∃ deeds : List Deed, ∃ st : TorrentStatus,
    (∀ d ∈ deeds, d.AddsAsOffered) ∧
      (Engine.status ⟨0, 1⟩ ((made true true).after deeds)).1 = .ok st ∧
      st.available = [true, true] ∧
      st.state = .finished ∧ ¬ Reopened (made true true) ⟨0, 1⟩ deeds := by
  let deeds : List Deed :=
    [.call (.add "film" [[1], [2]] .checkingFiles), .call (.feed ⟨0, 1⟩ ⟨0⟩),
      .call (.finishChecking ⟨0, 1⟩), .call (.feed ⟨0, 1⟩ ⟨1⟩)]
  have hoffered : ∀ d ∈ deeds, d.AddsAsOffered := by simp [deeds, Deed.AddsAsOffered]
  have hst : (Engine.status ⟨0, 1⟩ ((made true true).after deeds)).1 =
      .ok ⟨.finished, [true, true]⟩ := by
    decide +kernel
  exact ⟨deeds, _, hoffered, hst, rfl, rfl,
    ((finished_iff_complete true true hoffered hst (by simp)).2.mp rfl).2⟩

/-- All of a torrent comes in while it is checked, and then its check is ended: every piece is
there, and it is not finished. -/
theorem complete_unfinished : ¬ ∀ (deeds : List Deed) (h : Handle) (st : TorrentStatus),
    (∀ d ∈ deeds, d.AddsAsOffered) → (Engine.status h ((made true true).after deeds)).1 = .ok st →
      st.available ≠ [] → (st.state = .finished ↔ ∀ there ∈ st.available, there = true) := by
  intro hagree
  let deeds : List Deed :=
    [.call (.add "film" [[1]] .checkingFiles), .call (.feed ⟨0, 1⟩ ⟨0⟩),
      .call (.finishChecking ⟨0, 1⟩)]
  have hst : (Engine.status ⟨0, 1⟩ ((made true true).after deeds)).1 =
      .ok ⟨.downloading, [true]⟩ := by
    decide +kernel
  have hfinished :=
    (hagree deeds ⟨0, 1⟩ _ (by simp [deeds, Deed.AddsAsOffered]) hst (by simp)).mpr (by simp)
  cases hfinished

end TorrentFlow.Simulated
