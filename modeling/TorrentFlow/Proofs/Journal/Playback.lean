import TorrentFlow.Proofs.Journal.News

/-!
Alerts played back. From what is told of a torrent one knows whether it is there, which of its
pieces were downloaded and which states it went through: what is noted is faithful to the torrent,
whatever happens to it next.
-/

namespace TorrentFlow

/-- What is known of a torrent from what was told since it was added. -/
structure Told where
  finished : List Piece := []
  changes : List (TorrentState × TorrentState) := []
deriving DecidableEq

namespace News

def piece? : News → Option Piece
  | finished p => some p
  | _ => none

def change? : News → Option (TorrentState × TorrentState)
  | changed previous state => some (previous, state)
  | _ => none

/-- What is known of a torrent, if it is there, after one piece of news more. -/
def note (told : Option Told) : News → Option Told
  | added => some {}
  | removed => none
  | finished p => told.map fun d => { d with finished := d.finished ++ [p] }
  | changed previous state => told.map fun d =>
    { d with changes := d.changes ++ [(previous, state)] }

end News

/-- What a journal says of the torrent of a handle; nothing if it is not there. -/
def playback (h : Handle) (alerts : List Alert) : Option Told :=
  (news h alerts).foldl News.note none

lemma playback_append (h : Handle) (alerts alerts' : List Alert) :
    playback h (alerts ++ alerts') = (news h alerts').foldl News.note (playback h alerts) := by
  rw [playback, news_append, List.foldl_append]
  rfl

/-- Changes that lead from one state to another, each beginning where the one before ended. -/
def Leads : TorrentState → List (TorrentState × TorrentState) → TorrentState → Prop
  | first, [], last => first = last
  | first, (previous, state) :: rest, last => previous = first ∧ Leads state rest last

lemma Leads.snoc {first last state : TorrentState} {changes : List (TorrentState × TorrentState)}
    (h : Leads first changes last) : Leads first (changes ++ [(last, state)]) state := by
  induction changes generalizing first with
  | nil => exact ⟨h.symm, rfl⟩
  | cons change rest ih => exact ⟨h.1, ih h.2⟩

/-- What is told of a torrent is true of it: whether it is there, which pieces were downloaded, and
how it came from the state that it was added in to the one that it is in. -/
inductive Faithful (addedIn : Option TorrentState) : Option Told → Option SimulatedTorrent → Prop
  | untracked : Faithful addedIn none none
  | tracked {d : Told} {t : SimulatedTorrent} {first : TorrentState}
      (downloaded : ∀ p, p ∈ d.finished ↔ t.Downloaded p) (start : addedIn = some first)
      (changes : Leads first d.changes t.state) : Faithful addedIn (some d) (some t)

lemma downloaded_congr {t t' : SimulatedTorrent} (hp : t'.payloads = t.payloads)
    (ha : t'.available = t.available) (p : Piece) : t'.Downloaded p ↔ t.Downloaded p := by
  unfold SimulatedTorrent.Downloaded SimulatedTorrent.position? SimulatedTorrent.isAvailable
  rw [hp, ha]

lemma not_downloaded_fresh (name : String) (payloads : List Payload) (state : TorrentState)
    (p : Piece) :
    ¬ (SimulatedTorrent.fresh name payloads state).Downloaded p := by
  rintro ⟨i, -, hi⟩
  simp only [SimulatedTorrent.isAvailable, SimulatedTorrent.fresh, List.getElem?_map] at hi
  rcases hget : payloads[i]? with _ | payload <;> rw [hget] at hi <;> cases hi

/-- **What is faithful stays faithful** when what happens is noted. -/
theorem Faithful.note {addedIn begun : Option TorrentState} {told : Option Told} {ns : List News}
    {torrent torrent' : Option SimulatedTorrent} (h : Faithful addedIn told torrent)
    (hh : Simulated.Happens begun ns torrent torrent') :
    Faithful (begun.or addedIn) (ns.foldl News.note told) torrent' := by
  have hfed : ∀ {t : SimulatedTorrent} {p : Piece} {i : Nat} {finished : List Piece},
      t.position? p = some i → i < t.available.length → (∀ q, q ∈ finished ↔ t.Downloaded q) →
      ∀ q, q ∈ finished ++ [p] ↔ (Simulated.fed t p i).Downloaded q := fun hp hi hd q => by
    rw [List.mem_append, List.mem_singleton, hd, Simulated.downloaded_fed hp hi]
  cases hh with
  | untracked =>
    cases h
    exact .untracked
  | quiet payloads available state =>
    cases h with
    | tracked downloaded start changes =>
      exact .tracked (fun p =>
        (downloaded p).trans (downloaded_congr payloads available p).symm) start (state ▸ changes)
  | added name payloads state =>
    exact .tracked (fun p => iff_of_false List.not_mem_nil
      (not_downloaded_fresh name payloads state p)) rfl rfl
  | removed t => exact .untracked
  | checked t =>
    cases h with
    | tracked downloaded start changes => exact .tracked downloaded start changes.snoc
  | fed position bound state =>
    cases h with
    | tracked downloaded start changes =>
      exact .tracked (hfed position bound downloaded) start (state ▸ changes)
  | completed position bound state =>
    cases h with
    | tracked downloaded start changes =>
      exact .tracked (hfed position bound downloaded) start (state ▸ changes.snoc)

/-! ### Torrents that are added once -/

lemma foldl_note_none {ns : List News} (h : .added ∉ ns) : ns.foldl News.note none = none := by
  induction ns with
  | nil => rfl
  | cons n rest ih =>
    obtain ⟨hn, hrest⟩ := not_or.mp (mt List.mem_cons.mpr h)
    cases n with
    | added => exact absurd rfl hn
    | _ => exact ih hrest

lemma foldl_note_some {ns : List News} (h : .added ∉ ns) (d : Told) :
    ns.foldl News.note (some d) = if .removed ∈ ns then none else
      some ⟨d.finished ++ ns.filterMap News.piece?, d.changes ++ ns.filterMap News.change?⟩ := by
  induction ns generalizing d with
  | nil => simp
  | cons n rest ih =>
    obtain ⟨hn, hrest⟩ := not_or.mp (mt List.mem_cons.mpr h)
    cases n with
    | added => exact absurd rfl hn
    | removed => exact (foldl_note_none hrest).trans (if_pos List.mem_cons_self).symm
    | finished p =>
      refine (ih hrest _).trans ?_
      simp [News.piece?, News.change?, List.filterMap_cons]
    | changed previous state =>
      refine (ih hrest _).trans ?_
      simp [News.piece?, News.change?, List.filterMap_cons]

/-- The news of a torrent begin with its one add. -/
def Opened (ns : List News) : Prop := ∃ rest, ns = .added :: rest ∧ .added ∉ rest

lemma Opened.append {ns more : List News} (h : Opened ns) (hmore : .added ∉ more) :
    Opened (ns ++ more) := by
  obtain ⟨rest, rfl, hrest⟩ := h
  exact ⟨rest ++ more, rfl, fun hmem => (List.mem_append.mp hmem).elim hrest hmore⟩

/-- **A journal names what is tracked and what was downloaded**, if handles are given out once. -/
lemma Faithful.named {addedIn : Option TorrentState} {h : Handle} {alerts : List Alert}
    {torrent : Option SimulatedTorrent} (hf : Faithful addedIn (playback h alerts) torrent)
    (ho : news h alerts = [] ∨ Opened (news h alerts)) :
    (torrent.isSome = true ↔ .added ∈ news h alerts ∧ .removed ∉ news h alerts) ∧
      ∀ t, torrent = some t → (∀ p, t.Downloaded p ↔ .finished p ∈ news h alerts) ∧
        ∃ first, addedIn = some first ∧ Leads first ((news h alerts).filterMap News.change?)
        t.state := by
  -- no news at all, or an addition first and no other after it
  rcases ho with hnone | ⟨rest, hrest, hadded⟩
  · rw [playback, hnone] at hf
    cases hf
    rw [hnone]
    exact ⟨by simp, nofun⟩
  · have hplay : playback h alerts = if .removed ∈ rest then none else
        some ⟨rest.filterMap News.piece?, rest.filterMap News.change?⟩ := by
      rw [playback, hrest]
      exact foldl_note_some hadded {}
    rw [hplay] at hf
    rw [hrest]
    by_cases hremoved : .removed ∈ rest
    · rw [if_pos hremoved] at hf
      cases hf
      exact ⟨by simp [hremoved], nofun⟩
    · rw [if_neg hremoved] at hf
      cases hf with
      | tracked downloaded start changes =>
        refine ⟨by simp [hremoved], fun t ht => ?_⟩
        cases ht
        refine ⟨fun p => ?_, _, start, changes⟩
        rw [← downloaded, List.mem_filterMap, List.mem_cons]
        constructor
        · rintro ⟨n, hn, hp⟩
          cases n <;> cases hp
          exact .inr hn
        · rintro (hn | hn)
          · cases hn
          · exact ⟨_, hn, rfl⟩

end TorrentFlow
