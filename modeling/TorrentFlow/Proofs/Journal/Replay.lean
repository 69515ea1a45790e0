import TorrentFlow.Proofs.Journal.Playback

/-!
The alerts of the simulated engine as a journal. What was taken, followed by what is queued, is what
was generated under a mask that had its category, in order and once each. As long as the mask lets
everything through, the journal can be played back: it says which handles are tracked, which of
their pieces were downloaded, and each state that they went through.
-/

namespace TorrentFlow

namespace Simulated

/-! ### The journal -/

namespace Deed

/-- What a deed puts on record: the alerts that it generates and the mask of the moment lets
through. -/
def recorded (s : Simulated) (d : Deed) : List Alert := (d.generated s).filter s.accepts

def taken? (s : Simulated) : Deed → Option (List Alert)
  | takeAlerts => (Simulated.takeAlerts s).1.toOption
  | _ => none

end Deed

/-- What is put on record, deed by deed. -/
def entries : Simulated → List Deed → List (List Alert) := collect fun s d => some (d.recorded s)

def journal (s : Simulated) (deeds : List Deed) : List Alert := (s.entries deeds).flatten

def taken : Simulated → List Deed → List (List Alert) := collect Deed.taken?

lemma journal_snoc (s : Simulated) (deeds : List Deed) (d : Deed) :
    s.journal (deeds ++ [d]) = s.journal deeds ++ d.recorded (s.after deeds) := by
  rw [journal, entries, collect_snoc, List.flatten_append]
  exact congrArg _ (List.append_nil _)

lemma taken_snoc (s : Simulated) (deeds : List Deed) (d : Deed) :
    (s.taken (deeds ++ [d])).flatten =
      (s.taken deeds).flatten ++ ((d.taken? (s.after deeds)).toList).flatten := by
  rw [taken, collect_snoc, List.flatten_append]

/-- A deed takes from the front of the queue, and puts on record at its end. -/
lemma taken_queue_deed (s : Simulated) (d : Deed) :
    ((d.taken? s).toList).flatten ++ (d.apply s).queue = s.queue ++ d.recorded s := by
  cases d with
  | call c => exact EngineCall.queue_apply s c
  | applyMask mask => exact (List.append_nil _).symm
  | watch => exact (Source.undisturbed_watch s).queue.trans (List.append_nil _).symm
  | unwatch => exact (Source.undisturbed_unwatch s).queue.trans (List.append_nil _).symm
  | hasAlerts =>
    rw [Deed.apply, Source.snd_hasAlerts]
    exact (List.append_nil _).symm
  | takeAlerts => exact congrArg (· ++ []) (List.append_nil s.queue)

lemma mask_deed {d : Deed} (hd : ∀ mask, d ≠ .applyMask mask) (s : Simulated) :
    (d.apply s).mask = s.mask := by
  cases d with
  | call c => exact c.mask_apply s
  | applyMask mask => exact absurd rfl (hd mask)
  | watch => exact (Source.undisturbed_watch s).mask
  | unwatch => exact (Source.undisturbed_unwatch s).mask
  | hasAlerts => rw [Deed.apply, Source.snd_hasAlerts]
  | takeAlerts => rfl

lemma mask_after {deeds : List Deed} (hkeep : ∀ mask, .applyMask mask ∉ deeds) (s : Simulated) :
    (s.after deeds).mask = s.mask := by
  induction deeds using List.reverseRecOn with
  | nil => rfl
  | append_singleton deeds d ih =>
    rw [after_snoc, mask_deed, ih fun mask hmem => hkeep mask (List.mem_append_left _ hmem)]
    rintro mask rfl
    exact hkeep mask (by simp)

/-- **What was taken and what is queued is what was put on record.** -/
theorem taken_queue {s : Simulated} (hs : s.queue = []) (deeds : List Deed) :
    (s.taken deeds).flatten ++ (s.after deeds).queue = s.journal deeds := by
  induction deeds using List.reverseRecOn with
  | nil => exact hs
  | append_singleton deeds d ih =>
    rw [taken_snoc, after_snoc, journal_snoc, ← ih, List.append_assoc, taken_queue_deed,
      List.append_assoc]

/-! ### Histories that are told in full -/

/-- At every call the mask has the categories of all alerts. -/
def Outspoken (s : Simulated) (deeds : List Deed) : Prop :=
  ∀ earlier c later, deeds = earlier ++ .call c :: later → ∀ a, (s.after earlier).accepts a = true

lemma Outspoken.before {s : Simulated} {deeds : List Deed} {d : Deed}
    (h : s.Outspoken (deeds ++ [d])) :
    s.Outspoken deeds := by
  rintro earlier c later rfl
  exact h earlier c (later ++ [d]) (by simp)

lemma Outspoken.recorded {s : Simulated} {deeds : List Deed} {d : Deed}
    (h : s.Outspoken (deeds ++ [d])) :
    d.recorded (s.after deeds) = d.generated (s.after deeds) := by
  cases d with
  | call c => exact List.filter_eq_self.mpr fun a _ => h deeds c [] rfl a
  | _ => rfl

/-- A mask that lets everything through, and is never changed, tells everything. -/
lemma outspoken_applyMask {mask : Category} (hmask : ∀ a : Alert, mask.intersects a.category = true)
    {deeds : List Deed} (hkeep : ∀ other, .applyMask other ∉ deeds) (s : Simulated) :
    s.Outspoken (.applyMask mask :: deeds) := by
  rintro (_ | ⟨d, earlier⟩) c later heq a
  · cases heq
  · obtain ⟨rfl, rfl⟩ := List.cons.inj heq
    have hearlier : ((s.applyMask mask).after earlier).mask = mask :=
      mask_after (fun other hmem => hkeep other (List.mem_append_left _ hmem)) _
    exact (congrArg (·.intersects a.category) hearlier).trans (hmask a)

/-! ### Histories against their journals -/

/-- The state in which a torrent was added last under a handle. -/
def addedIn (h : Handle) (s : Simulated) (deeds : List Deed) : Option TorrentState :=
  (collect (Deed.begun? h) s deeds).getLast?

lemma addedIn_snoc (h : Handle) (s : Simulated) (deeds : List Deed) (d : Deed) :
    addedIn h s (deeds ++ [d]) = (d.begun? h (s.after deeds)).or (addedIn h s deeds) := by
  unfold addedIn
  rw [collect_snoc, List.getLast?_append]
  rcases d.begun? h (s.after deeds) with _ | state <;> rfl

lemma length_le_after (s : Simulated) (earlier later : List Deed) :
    (s.after earlier).slots.length ≤ (s.after (earlier ++ later)).slots.length := by
  induction later using List.reverseRecOn with
  | nil => simp
  | append_singleton later d ih =>
    rw [← List.append_assoc, after_snoc]
    exact Nat.le_trans ih (length_le_apply _ d)

variable {notifySupported waitSupported : Bool} {deeds : List Deed}

/-- **The journal of an outspoken history is faithful** to every torrent. -/
theorem faithful_after (ho : (made notifySupported waitSupported).Outspoken deeds)
    (hslots : ((made notifySupported waitSupported).after deeds).slots.length ≤ UInt32.size)
    (h : Handle) :
    Faithful (addedIn h (made notifySupported waitSupported) deeds)
      (playback h ((made notifySupported waitSupported).journal deeds))
      (((made notifySupported waitSupported).after deeds).torrent? h) := by
  induction deeds using List.reverseRecOn with
  | nil => exact .untracked
  | append_singleton deeds d ih =>
    have hbefore := Nat.le_trans (length_le_after _ deeds [d]) hslots
    rw [after_snoc] at hslots
    -- the mask lets all of the last deed's alerts through, and they say what it did
    rw [addedIn_snoc, journal_snoc, playback_append, after_snoc, ho.recorded]
    exact (ih ho.before hbefore).note (happens (whole_after _ _ deeds) d hslots h)

lemma Happens.opened {begun : Option TorrentState} {ns : List News}
    {torrent torrent' : Option SimulatedTorrent} (h : Happens begun ns torrent torrent') :
    (∃ state, begun = some state ∧ ns = [.added] ∧ torrent = none) ∨
      begun = none ∧ .added ∉ ns ∧ (ns = [] ∨ torrent.isSome = true) := by
  cases h with
  | untracked => exact .inr ⟨rfl, by simp, .inl rfl⟩
  | added name payloads state => exact .inl ⟨state, rfl, rfl, rfl⟩
  | _ => exact .inr ⟨rfl, by simp, .inr rfl⟩

lemma given?_of_begun? {h : Handle} {s : Simulated} {d : Deed} {state : TorrentState}
    (hd : d.begun? h s = some state) : d.given? s = some h := by
  cases d with
  | call c =>
    cases c with
    | add name payloads state =>
      simp only [Deed.begun?] at hd
      split_ifs at hd with hh
      exact congrArg some hh
    | _ => cases hd
  | _ => cases hd

/-- **A handle that no slot runs out of has one add in the journal**, before all else that is told
of it. -/
theorem opened_after (ho : (made notifySupported waitSupported).Outspoken deeds)
    (hl : Lasting (made notifySupported waitSupported) deeds) (h : Handle) :
    news h ((made notifySupported waitSupported).journal deeds) = [] ∨
      h ∈ (made notifySupported waitSupported).given deeds ∧
        Opened (news h ((made notifySupported waitSupported).journal deeds)) := by
  induction deeds using List.reverseRecOn with
  | nil => exact .inl rfl
  | append_singleton deeds d ih =>
    have hslots := hl.slots
    rw [after_snoc] at hslots
    have hcounted := counted_after (counted_of_empty rfl) hl
    rw [journal_snoc, news_append, ho.recorded, given_snoc]
    rw [given_snoc] at hcounted
    rcases (happens (whole_after _ _ deeds) d hslots h).opened with
      ⟨state, hbegun, hns, -⟩ | ⟨-, hadded, hns | htracked⟩
    · -- the handle is new, so that nothing was told of it before
      have hgiven := given?_of_begun? hbegun
      rw [hgiven] at hcounted ⊢
      have hnew : h ∉ (made notifySupported waitSupported).given deeds := fun hmem =>
        (List.nodup_append.mp hcounted.nodup).2.2 h hmem h (by simp) rfl
      rw [(ih ho.before hl.before).resolve_right fun hin => hnew hin.1, hns]
      exact .inr ⟨by simp, [], rfl, List.not_mem_nil⟩
    · rw [hns, List.append_nil]
      exact (ih ho.before hl.before).imp_right fun ⟨hmem, hopen⟩ =>
        ⟨List.mem_append_left _ hmem, hopen⟩
    · rcases ih ho.before hl.before with hnone | ⟨hmem, hopen⟩
      · -- nothing was told of a torrent that is there
        have hfaith := faithful_after ho.before hl.before.slots h
        rw [playback, hnone] at hfaith
        obtain ⟨t, ht⟩ := Option.isSome_iff_exists.mp htracked
        rw [ht] at hfaith
        cases hfaith
      · exact .inr ⟨List.mem_append_left _ hmem, hopen.append hadded⟩

/-! ### The engine from its journal -/

/-- What a deed puts on record of a torrent's state is how the deed changed it, and every change is
on record. -/
structure Candid (h : Handle) (s : Simulated) (d : Deed) : Prop where
  sound : ∀ name previous state, .stateChanged h name previous state ∈ d.recorded s →
    ∃ t t', s.torrent? h = some t ∧ (d.apply s).torrent? h = some t' ∧ t.state = previous ∧
    t'.state = state
  complete : ∀ t t', s.torrent? h = some t → (d.apply s).torrent? h = some t' → t'.state ≠ t.state →
    ∃ name, .stateChanged h name t.state t'.state ∈ d.recorded s

lemma Happens.candid {begun : Option TorrentState} {ns : List News}
    {torrent torrent' : Option SimulatedTorrent} (hh : Happens begun ns torrent torrent') :
    (∀ previous state, .changed previous state ∈ ns → ∃ t t', torrent = some t ∧
      torrent' = some t' ∧
        t.state = previous ∧ t'.state = state) ∧
      ∀ t t', torrent = some t → torrent' = some t' → t'.state ≠ t.state →
        .changed t.state t'.state ∈ ns := by
  cases hh with
  | untracked => exact ⟨by simp, nofun⟩
  | quiet payloads available state =>
    refine ⟨by simp, fun t t' ht ht' hne => absurd ?_ hne⟩
    cases ht
    cases ht'
    exact state
  | added => exact ⟨by simp, nofun⟩
  | removed t => exact ⟨by simp, fun _ _ _ ht' => by cases ht'⟩
  | checked t =>
    refine ⟨fun previous state hmem => ?_, fun u u' hu hu' _ => ?_⟩
    · obtain ⟨rfl, rfl⟩ := News.changed.inj (List.mem_singleton.mp hmem)
      exact ⟨t, _, rfl, rfl, rfl, rfl⟩
    · cases hu
      cases hu'
      exact List.mem_singleton_self _
  | fed position bound state =>
    refine ⟨by simp, fun u u' hu hu' hne => absurd ?_ hne⟩
    cases hu
    cases hu'
    exact state
  | @completed t p i position bound hstate =>
    refine ⟨fun previous state hmem => ?_, fun u u' hu hu' _ => ?_⟩
    · obtain ⟨rfl, rfl⟩ : previous = t.state ∧ state = .finished := by simpa using hmem
      exact ⟨t, _, rfl, rfl, rfl, hstate⟩
    · cases hu
      cases hu'
      rw [hstate]
      simp

/-- **The alert stream is a faithful journal.** In every history of the engine what was taken,
followed by what is queued, is what was generated under a mask that had its category, in order and
once each. If the mask lets every alert through, and slots have numbers:

* played back, the journal says of each handle whether it is tracked, which of its pieces were
  downloaded, and how its torrent came from the state in which it was added to the one in which it
  is;
* each change of state is told where it happens, with the states before and after, and no other is;
* if no slot runs out of generations, the tracked handles are those that were told to be added and
  not to be removed, and their pieces that were downloaded are those that were told to be
  finished. -/
theorem journal_faithful (notifySupported waitSupported : Bool) (deeds : List Deed)
    {start s : Simulated} (hstart : made notifySupported waitSupported = start)
    (hs : start.after deeds = s) :
    (start.taken deeds).flatten ++ s.queue = start.journal deeds ∧
      (start.Outspoken deeds → s.slots.length ≤ UInt32.size →
        (∀ h, Faithful (addedIn h start deeds) (playback h (start.journal deeds)) (s.torrent? h)) ∧
        (∀ earlier d later, deeds = earlier ++ d :: later → ∀ h, Candid h (start.after earlier) d) ∧
        ((∀ i, (start.filled deeds).count i < UInt32.size) → ∀ h,
          ((s.torrent? h).isSome = true ↔ (∃ name, .torrentAdded h name ∈ start.journal deeds) ∧
            ∀ name, .torrentRemoved h name ∉ start.journal deeds) ∧
          ∀ t, s.torrent? h = some t →
            (∀ p, t.Downloaded p ↔ ∃ name, .pieceFinished h name p ∈ start.journal deeds) ∧
            ∃ first, addedIn h start deeds = some first ∧
              Leads first ((news h (start.journal deeds)).filterMap News.change?) t.state)) := by
  subst hstart hs
  refine ⟨taken_queue rfl deeds, fun ho hslots => ⟨faithful_after ho hslots, ?_, fun hfew h => ?_⟩⟩
  · -- what the mask let through up to this deed it let through of the deed itself
    rintro earlier d later rfl h
    have hbefore : (made notifySupported waitSupported).Outspoken (earlier ++ [d]) := by
      rintro earlier' c later' heq
      exact ho earlier' c (later' ++ later)
        (by rw [← List.cons_append, ← List.append_assoc, ← heq]; simp)
    have hlt : (d.apply ((made notifySupported waitSupported).after earlier)).slots.length ≤
        UInt32.size := by
      have hle := length_le_after (made notifySupported waitSupported) (earlier ++ [d]) later
      rw [List.append_assoc, after_snoc] at hle
      exact Nat.le_trans hle hslots
    obtain ⟨hsound, hcomplete⟩ := (happens (whole_after _ _ earlier) d hlt h).candid
    rw [← hbefore.recorded] at hsound hcomplete
    exact ⟨fun name previous state hmem => hsound previous state (mem_news.mpr ⟨name, hmem⟩),
      fun t t' ht ht' hne => mem_news.mp (hcomplete t t' ht ht' hne)⟩
  · -- handles are given out once, so that the journal of one is of one torrent
    have hopened := (opened_after ho ⟨hslots, hfew⟩ h).imp_right And.right
    obtain ⟨htracked, htorrent⟩ := (faithful_after ho hslots h).named hopened
    simp only [mem_news, News.alert, not_exists] at htracked htorrent
    exact ⟨htracked, htorrent⟩

/-- A torrent that is checked and downloaded in full, and one that takes the place of another: the
journal of it all. -/
theorem journal_faithful_full : ∃ (deeds : List Deed) (start s : Simulated),
    made true true = start ∧ start.after deeds = s ∧ start.Outspoken deeds ∧
      s.slots.length ≤ UInt32.size ∧ (∀ i, (start.filled deeds).count i < UInt32.size) ∧
      (start.taken deeds).flatten ++ s.queue = start.journal deeds ∧
      playback ⟨0, 1⟩ (start.journal deeds) = some ⟨[⟨1⟩, ⟨0⟩],
        [(.checkingFiles, .downloading), (.downloading, .finished)]⟩ ∧
      Faithful (some .checkingFiles) (playback ⟨0, 1⟩ (start.journal deeds)) (s.torrent? ⟨0, 1⟩) ∧
      (s.torrent? ⟨1, 1⟩).isSome = false ∧ (s.torrent? ⟨1, 2⟩).isSome = true ∧
      ∀ name, .torrentRemoved ⟨1, 2⟩ name ∉ start.journal deeds := by
  let mask : Category := .error ||| .storage ||| .status ||| .sessionLog ||| .pieceProgress
  let deeds : List Deed :=
    [.call (.add "a" [[1], [2]] .checkingFiles), .call (.finishChecking ⟨0, 1⟩),
      .call (.feed ⟨0, 1⟩ ⟨1⟩), .takeAlerts, .call (.feed ⟨0, 1⟩ ⟨0⟩),
      .call (.add "b" [] .downloading), .call (.remove ⟨1, 1⟩), .call (.add "c" [[3]] .downloading)]
  have hmask : ∀ a : Alert, mask.intersects a.category = true := fun a => by
    unfold Alert.category
    cases a.kind <;> decide
  have ho : (made true true).Outspoken (.applyMask mask :: deeds) :=
    outspoken_applyMask hmask (by simp [deeds]) _
  have hfilled : (made true true).filled (.applyMask mask :: deeds) = [0, 1, 1] := by decide
  have hfew : ∀ i, ((made true true).filled (.applyMask mask :: deeds)).count i < UInt32.size :=
    fun i => by
    rw [hfilled]
    exact Nat.lt_of_le_of_lt List.count_le_length (by decide)
  have hslots : ((made true true).after (.applyMask mask :: deeds)).slots.length ≤
      UInt32.size := by decide
  obtain ⟨hjournal, hrest⟩ := journal_faithful true true (.applyMask mask :: deeds) rfl rfl
  obtain ⟨hfaith, -, hnamed⟩ := hrest ho hslots
  have hadded : addedIn ⟨0, 1⟩ (made true true) (.applyMask mask :: deeds) =
      some .checkingFiles := by decide
  have htracked : (((made true true).after (.applyMask mask :: deeds)).torrent? ⟨1, 2⟩).isSome =
      true := by
    decide
  exact ⟨_, _, _, rfl, rfl, ho, hslots, hfew, hjournal, by decide +kernel,
    hadded ▸ hfaith ⟨0, 1⟩, by decide, htracked, ((hnamed hfew ⟨1, 2⟩).1.mp htracked).2⟩

end Simulated

end TorrentFlow
