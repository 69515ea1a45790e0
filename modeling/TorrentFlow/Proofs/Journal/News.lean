import TorrentFlow.Proofs.Handles

/-!
What the alerts of one deed say of one torrent, and what the deed does to that torrent: nothing
happens to a torrent that is not told, and nothing is told that does not happen.
-/

namespace TorrentFlow

/-- What an alert can say of a torrent. -/
inductive News where
  | added
  | removed
  | finished (piece : Piece)
  | changed (previous state : TorrentState)
deriving DecidableEq

namespace News

def ofAlert? (h : Handle) : Alert → Option News
  | .torrentAdded g _ => if g = h then some .added else none
  | .torrentRemoved g _ => if g = h then some .removed else none
  | .pieceFinished g _ p => if g = h then some (.finished p) else none
  | .stateChanged g _ previous state => if g = h then some (.changed previous state) else none
  | _ => none

def alert (h : Handle) (name : String) : News → Alert
  | added => .torrentAdded h name
  | removed => .torrentRemoved h name
  | finished p => .pieceFinished h name p
  | changed previous state => .stateChanged h name previous state

lemma ofAlert?_eq_some {h : Handle} {a : Alert} {n : News} :
    ofAlert? h a = some n ↔ ∃ name, n.alert h name = a := by
  constructor
  · intro hn
    cases a <;> simp only [ofAlert?, reduceCtorEq] at hn <;> split_ifs at hn with hg <;>
      cases hn <;> exact ⟨_, by rw [← hg]; rfl⟩
  · rintro ⟨name, rfl⟩
    cases n <;> exact if_pos rfl

end News

def news (h : Handle) (alerts : List Alert) : List News := alerts.filterMap (News.ofAlert? h)

lemma news_append (h : Handle) (alerts alerts' : List Alert) :
    news h (alerts ++ alerts') = news h alerts ++ news h alerts' := List.filterMap_append

lemma mem_news {h : Handle} {alerts : List Alert} {n : News} :
    n ∈ news h alerts ↔ ∃ name, n.alert h name ∈ alerts := by
  rw [news, List.mem_filterMap]
  constructor
  · rintro ⟨a, ha, hn⟩
    obtain ⟨name, rfl⟩ := News.ofAlert?_eq_some.mp hn
    exact ⟨name, ha⟩
  · rintro ⟨name, ha⟩
    exact ⟨_, ha, News.ofAlert?_eq_some.mpr ⟨name, rfl⟩⟩

/-! ### What happens to a torrent -/

/-- The piece was downloaded. -/
def SimulatedTorrent.Downloaded (t : SimulatedTorrent) (p : Piece) : Prop :=
  ∃ i, t.position? p = some i ∧ t.isAvailable i = true

namespace Simulated

lemma downloaded_fed {t : SimulatedTorrent} {p q : Piece} {i : Nat} (hp : t.position? p = some i)
    (hi : i < t.available.length) : (fed t p i).Downloaded q ↔ t.Downloaded q ∨ q = p := by
  have hpos : ∀ q, (fed t p i).position? q = t.position? q := fun _ => rfl
  have hav : ∀ j, (fed t p i).isAvailable j = if j = i then true else t.isAvailable j := fun j => by
    simp only [fed, SimulatedTorrent.isAvailable, List.getElem?_set]
    by_cases hj : j = i
    · subst hj
      simp [hi]
    · simp [hj, Ne.symm hj]
  constructor
  · rintro ⟨j, hq, hj⟩
    rw [hpos] at hq
    rw [hav] at hj
    split_ifs at hj with hji
    · exact .inr (position?_inj hq (hji ▸ hp))
    · exact .inl ⟨j, hq, hj⟩
  · rintro (⟨j, hq, hj⟩ | rfl)
    · exact ⟨j, hq, by rw [hav, hj, ite_self]⟩
    · exact ⟨i, hp, by rw [hav, if_pos rfl]⟩

/-- What happens to the torrent of a handle, and what is told of it. A torrent that is added starts
out in some state. -/
inductive Happens : Option TorrentState → List News → Option SimulatedTorrent →
    Option SimulatedTorrent → Prop
  | untracked : Happens none [] none none
  | quiet {t t' : SimulatedTorrent} (payloads : t'.payloads = t.payloads)
      (available : t'.available = t.available) (state : t'.state = t.state) :
      Happens none [] (some t) (some t')
  | added (name : String) (payloads : List Payload) (state : TorrentState) :
      Happens (some state) [.added] none (some (.fresh name payloads state))
  | removed (t : SimulatedTorrent) : Happens none [.removed] (some t) none
  | checked (t : SimulatedTorrent) :
      Happens none [.changed t.state .downloading] (some t) (some { t with state := .downloading })
  | fed {t : SimulatedTorrent} {p : Piece} {i : Nat} (position : t.position? p = some i)
      (bound : i < t.available.length) (state : (fed t p i).state = t.state) :
      Happens none [.finished p] (some t) (some (fed t p i))
  | completed {t : SimulatedTorrent} {p : Piece} {i : Nat} (position : t.position? p = some i)
      (bound : i < t.available.length) (state : (Simulated.fed t p i).state = .finished) :
      Happens none [.finished p, .changed t.state .finished] (some t) (some (Simulated.fed t p i))

lemma Happens.refl (torrent : Option SimulatedTorrent) : Happens none [] torrent torrent := by
  cases torrent with
  | none => exact .untracked
  | some t => exact .quiet rfl rfl rfl

end Simulated

namespace EngineCall

open Simulated

/-- The bytes of a piece that comes in are no news of the torrent. -/
lemma news_feedAlerts (h : Handle) (t : SimulatedTorrent) (p : Piece) (i : Nat) :
    news h (feedAlerts h t p i) =
      if (t.available.set i true).all id = true ∧ t.state ≠ .finished then
        [.finished p, .changed t.state .finished]
      else [.finished p] := by
  have hread : news h (if t.readRequests.contains p then [.readPiece h t.name p (t.payload i) none]
      else []) = [] := by
    split <;> rfl
  have hfinished : news h [.pieceFinished h t.name p] =
      [.finished p] := by simp [news, News.ofAlert?]
  rw [feedAlerts, news_append, news_append, hread, hfinished, List.append_nil]
  simp only [Bool.and_eq_true, bne_iff_ne]
  split
  · simp [news, News.ofAlert?]
  · rfl

/-- A call tells of the torrent that it is about, and of no other. -/
lemma news_of_other {c : EngineCall} (hc : c.isAdd = false) {h : Handle} (hh : c.handle? ≠ some h)
    (s : Simulated) : news h (c.generated s) = [] := by
  have hne : ∀ {g : Handle}, c.handle? = some g → g ≠ h :=
    fun hg e => hh (hg.trans (congrArg some e))
  cases c with
  | add => cases hc
  | finishChecking g | remove g =>
    rcases ht : s.torrent? g with _ | t <;>
      simp [generated, ht, news, News.ofAlert?, hne rfl]
  | feed g p =>
    rcases hp : s.piece? g p with _ | ⟨t, i⟩
    · simp [generated, hp, news]
    · simp only [generated, hp, news, feedAlerts]
      split_ifs <;> simp [News.ofAlert?, hne rfl]
  | fail g p e =>
    rcases hp : s.piece? g p with _ | ⟨t, i⟩ <;> simp [generated, hp, news, News.ofAlert?]
  | setDeadline g p deadline alert =>
    rcases hp : s.piece? g p with _ | ⟨t, i⟩
    · simp [generated, hp, news]
    · simp only [generated, hp]
      split_ifs <;> simp [news, News.ofAlert?]
  | log | resetDeadline | status | isTracked => rfl

lemma generated_of_untracked {c : EngineCall} {s : Simulated} {h : Handle} (hh : c.handle? = some h)
    (ht : s.torrent? h = none) : c.generated s = [] := by
  have hpiece : ∀ p, s.piece? h p = none := fun p => by rw [piece?, ht, Option.bind_none]
  cases c with
  | finishChecking | remove =>
    obtain rfl := Option.some.inj hh
    simp only [generated, ht]
  | feed | setDeadline =>
    obtain rfl := Option.some.inj hh
    simp only [generated, hpiece]
  | resetDeadline => rfl
  | _ => cases hh

lemma happens_onTorrent {c : EngineCall} {s : Simulated} {h : Handle} {t : SimulatedTorrent}
    (hh : c.handle? = some h) (ht : s.torrent? h = some t)
    (hlen : t.available.length = t.payloads.length) :
    Happens none (news h (c.generated s)) (some t) (c.onTorrent t) := by
  cases c with
  | finishChecking g =>
    obtain rfl := Option.some.inj hh
    simp only [generated, ht, news, News.ofAlert?, List.filterMap_cons, List.filterMap_nil, if_true]
    exact .checked t
  | remove g =>
    obtain rfl := Option.some.inj hh
    simp only [generated, ht, news, News.ofAlert?, List.filterMap_cons, List.filterMap_nil, if_true]
    exact .removed t
  | feed g p =>
    obtain rfl := Option.some.inj hh
    rcases hi : t.position? p with _ | i
    · simp only [generated, piece?, ht, hi, onTorrent, Option.bind_some, Option.map_none]
      exact .refl _
    · have hbound : i < t.available.length := by
        rw [hlen]
        exact (position?_eq_some.mp hi).2
      simp only [generated, piece?, ht, hi, onTorrent, Option.bind_some, Option.map_some,
        news_feedAlerts]
      by_cases hall : (t.available.set i true).all id = true
      · -- a piece that comes twice does not finish the torrent again
        by_cases hfin : t.state = .finished
        · rw [if_neg fun h => h.2 hfin]
          exact .fed hi hbound ((if_pos hall).trans hfin.symm)
        · rw [if_pos ⟨hall, hfin⟩]
          exact .completed hi hbound (if_pos hall)
      · rw [if_neg fun h => hall h.1]
        exact .fed hi hbound (if_neg hall)
  | setDeadline g p deadline alert =>
    -- bytes of a piece are no news of the torrent
    have hnews : news h ((setDeadline g p deadline alert).generated s) = [] := by
      simp only [generated]
      split
      · split_ifs <;> rfl
      · rfl
    rw [hnews]
    simp only [onTorrent]
    split <;> exact .quiet rfl rfl rfl
  | resetDeadline g p =>
    show Happens none [] (some t) _
    simp only [onTorrent]
    split <;> exact .quiet rfl rfl rfl
  | _ => cases hh

end EngineCall

namespace Simulated

namespace Deed

def generated (s : Simulated) : Deed → List Alert
  | call c => c.generated s
  | _ => []

/-- The state in which a deed starts a torrent under a handle, if it does. -/
def begun? (h : Handle) (s : Simulated) : Deed → Option TorrentState
  | call (.add name payloads state) =>
    if (insertTorrent name payloads state s).1 = h then some state else none
  | _ => none

end Deed

lemma happens_call {s : Simulated} (hs : s.Whole) {c : EngineCall} (hc : c.isAdd = false)
    (h : Handle) :
    Happens none (news h (c.generated s)) (s.torrent? h) ((c.apply s).torrent? h) := by
  rw [EngineCall.torrent?_apply hc]
  by_cases hh : c.handle? = some h
  · rw [if_pos hh]
    rcases ht : s.torrent? h with _ | t
    · rw [EngineCall.generated_of_untracked hh ht]
      exact .untracked
    · exact EngineCall.happens_onTorrent hh ht (hs h t ht).2
  · rw [if_neg hh, EngineCall.news_of_other hc hh]
    exact .refl _

lemma happens_add {s : Simulated} (hlt : s.nextSlot < UInt32.size) (name : String)
    (payloads : List Payload) (state : TorrentState) (h : Handle) :
    Happens (if s.nextHandle = h then some state else none)
      (news h [.addTorrent (some s.nextHandle) name none, .torrentAdded s.nextHandle name])
      (s.torrent? h) ((insertTorrent name payloads state s).2.torrent? h) := by
  rw [torrent?_insertTorrent_of_lt hlt]
  by_cases hh : s.nextHandle = h
  · subst hh
    simp only [news, News.ofAlert?, List.filterMap_cons, List.filterMap_nil, if_true,
      torrent?_nextHandle hlt]
    exact .added name payloads state
  · simp only [news, News.ofAlert?, List.filterMap_cons, List.filterMap_nil, hh,
      Ne.symm hh, if_false]
    exact .refl _

/-- **What a deed tells of a torrent is what it does to it**, as long as slots have numbers. -/
theorem happens {s : Simulated} (hs : s.Whole) (d : Deed)
    (hslots : (d.apply s).slots.length ≤ UInt32.size) (h : Handle) :
    Happens (d.begun? h s) (news h (d.generated s)) (s.torrent? h) ((d.apply s).torrent? h) := by
  have hquiet : (∀ c, d ≠ .call c) → Happens none [] (s.torrent? h) ((d.apply s).torrent? h) :=
    fun hd => by
    rw [torrent?_congr (slots_deed hd s)]
    exact .refl _
  cases d with
  | call c =>
    rcases hadd : c.isAdd with _ | _
    · have hbegun : Deed.begun? h s (.call c) = none := by cases c <;> first | rfl | cases hadd
      rw [hbegun]
      exact happens_call hs hadd h
    · cases c with
      | add name payloads state =>
        have hlt : s.nextSlot < UInt32.size :=
          Nat.lt_of_lt_of_le (nextSlot_lt_apply name payloads state s) hslots
        exact happens_add hlt name payloads state h
      | _ => cases hadd
  | _ => exact hquiet (by simp)

end Simulated

end TorrentFlow
