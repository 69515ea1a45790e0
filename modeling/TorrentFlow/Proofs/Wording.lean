import TorrentFlow.Proofs.Categories

/-!
What the operator reads. A set of categories is written member by member, and the text tells which
set it was: no text of a member has a bar in it, so that the whole can be cut at its bars again, and
no two bits have a text in common, be it a name or a number, nor does any share one with the empty
set. An alert is logged under its kind with its message, and the message of whatever concerns a
torrent has the torrent's name in it, so that the name is never put in front of the message.
-/

namespace TorrentFlow

namespace Category

/-! ### A set and its members -/

lemma mem_members {c d : Category} : d ∈ c.members ↔ ∃ i < 32, c.has i = true ∧ d = bit i := by
  rw [members_eq, List.mem_map]
  constructor
  · rintro ⟨i, hi, rfl⟩
    have hhas := mem_bitNumbers.mp hi
    exact ⟨i, lt_of_has hhas, hhas, rfl⟩
  · rintro ⟨i, -, hhas, rfl⟩
    exact ⟨i, mem_bitNumbers.mpr hhas, rfl⟩

lemma bit_lt_bit {i j : Nat} (hi : i < 32) (hj : j < 32) (h : i < j) : bit i < bit j := by
  show (bit i).bits < (bit j).bits
  rw [UInt32.lt_iff_toNat_lt, toNat_bit hi, toNat_bit hj]
  exact Nat.pow_lt_pow_right (by omega) h

lemma members_ascending (c : Category) : c.members.Pairwise (· < ·) := by
  rw [members_eq, List.pairwise_map]
  refine c.bitNumbers_ascending.imp_of_mem fun hi hj hlt => ?_
  exact bit_lt_bit (lt_of_has (mem_bitNumbers.mp hi)) (lt_of_has (mem_bitNumbers.mp hj)) hlt

lemma length_members (c : Category) : c.members.length = (List.range 32).countP c.has := by
  rw [members_eq, List.length_map, List.countP_eq_length_filter]
  rfl

lemma union_members (c : Category) : union c.members = c := by
  refine eq_of_has fun i hi => ?_
  rw [has_union]
  constructor
  · rintro ⟨d, hd, hdi⟩
    obtain ⟨j, hj, hcj, rfl⟩ := mem_members.mp hd
    rw [has_bit hj, decide_eq_true_iff] at hdi
    exact hdi ▸ hcj
  · intro hci
    exact ⟨bit i, mem_members.mpr ⟨i, hi, hci, rfl⟩, by simp [has_bit hi]⟩

lemma members_inj {c d : Category} (h : c.members = d.members) : c = d :=
  calc c = union c.members := (union_members c).symm
    _ = union d.members := by rw [h]
    _ = d := union_members d

lemma members_eq_nil {c : Category} : c.members = [] ↔ c = none := by
  constructor
  · intro h
    exact members_inj (h.trans (by decide))
  · rintro rfl
    decide

/-! ### A set and its text -/

/-- What stands between the bars of a text. -/
def words (c : Category) : List String := if c.isEmpty then ["none"] else c.members.map memberText

def ofWord? (w : String) : Option Category :=
  ((List.range 32).map bit).find? fun d => d.memberText == w

/-- The set that a text is read as. -/
def ofText (text : String) : Category :=
  union (((text.toList.splitOn '|').map String.ofList).filterMap ofWord?)

lemma ofWord?_memberText : ∀ i < 32, ofWord? (bit i).memberText = some (bit i) := by decide +kernel

/-- What the empty set is written as is no name of a bit. -/
lemma ofWord?_none : ofWord? "none" = .none := by decide +kernel

lemma bar_not_mem_memberText : ∀ i < 32, '|' ∉ (bit i).memberText.toList := by decide +kernel

lemma text_eq (c : Category) : c.text = "|".intercalate c.words := by
  unfold text words
  split
  · simp
  · rfl

lemma words_ne_nil (c : Category) : c.words ≠ [] := by
  unfold words
  split
  · simp
  · next hne =>
    have hmembers : c.members ≠ [] := fun h => hne (by rw [members_eq_nil.mp h]; rfl)
    simpa using hmembers

lemma bar_not_mem_of_mem_words {c : Category} {w : String} (h : w ∈ c.words) : '|' ∉ w.toList := by
  unfold words at h
  split at h
  · rw [List.mem_singleton.mp h]
    decide
  · obtain ⟨d, hd, rfl⟩ := List.mem_map.mp h
    obtain ⟨i, hi, -, rfl⟩ := mem_members.mp hd
    exact bar_not_mem_memberText i hi

/-- A text cut at its bars. -/
lemma splitOn_text (c : Category) : c.text.toList.splitOn '|' = c.words.map String.toList := by
  rw [text_eq, String.toList_intercalate]
  refine List.splitOn_intercalate '|' (fun l hl => ?_) (by simpa using c.words_ne_nil)
  obtain ⟨w, hw, rfl⟩ := List.mem_map.mp hl
  exact bar_not_mem_of_mem_words hw

/-- Each word is read as the member it was written for, and the word of the empty set as none at
all. -/
lemma filterMap_words (c : Category) : c.words.filterMap ofWord? = c.members := by
  unfold words
  split
  · next hempty =>
    rw [members, if_pos hempty, List.filterMap_cons_none ofWord?_none, List.filterMap_nil]
  · rw [List.filterMap_map, List.filterMap_congr (g := some), List.filterMap_some]
    intro d hd
    obtain ⟨i, hi, -, rfl⟩ := mem_members.mp hd
    exact ofWord?_memberText i hi

/-- **The text of a set is read as that set.** -/
theorem ofText_text (c : Category) : ofText c.text = c := by
  have hwords : (c.words.map String.toList).map String.ofList = c.words := by simp
  rw [ofText, splitOn_text, hwords, filterMap_words, union_members]

lemma text_inj {c d : Category} : c.text = d.text ↔ c = d := by
  refine ⟨fun h => ?_, fun h => h ▸ rfl⟩
  calc c = ofText c.text := (ofText_text c).symm
    _ = ofText d.text := by rw [h]
    _ = d := ofText_text d

/-- **A set comes apart into its members and is written down without loss.** What is split off is
exactly the sets of one bit that are in it, each once and in ascending order, and together they are
the set again; and no other set has the same text. -/
theorem members_and_text_lossless (c : Category) :
    (∀ d, d ∈ c.members ↔ ∃ i < 32, c.has i = true ∧ d = bit i) ∧
      c.members.Pairwise (· < ·) ∧
      union c.members = c ∧
      c.members.length = (List.range 32).countP c.has ∧
      (c.members = [] ↔ c = none) ∧
      ∀ d : Category, d.text = c.text ↔ d = c :=
  ⟨fun _ => mem_members, members_ascending c, union_members c, length_members c, members_eq_nil,
    fun _ => text_inj⟩

example : (⟨0x40000081⟩ : Category).text = "error|0x80|0x40000000" := by decide +kernel

end Category

namespace Alert

/-! ### An alert and its line -/

lemma occursIn_iff {needle text : List Char} : occursIn needle text = true ↔ needle <:+: text := by
  induction text with
  | nil => rw [occursIn, List.isEmpty_iff, List.infix_nil]
  | cons c rest ih =>
    rw [occursIn, Bool.or_eq_true, List.isPrefixOf_iff_prefix, ih, List.infix_cons_iff]

lemma around_of_leading {n text : String} (rest : String) (h : text = n ++ rest) :
    ∃ before after, text = before ++ n ++ after :=
  ⟨"", rest, by rw [h, String.empty_append]⟩

/-- **Every message about a torrent has the torrent's name in it**, whatever the name and the other
texts are. -/
theorem exists_message_eq {a : Alert} {n : String} (h : a.torrentName? = some n) :
    ∃ before after, a.message = before ++ n ++ after := by
  -- an add tells its outcome first, every other message begins with the name
  cases a with
  | addTorrent handle name error =>
    obtain rfl : name = n := Option.some.inj h
    rcases error with _ | e
    · exact ⟨"added torrent ", "", String.append_empty.symm⟩
    · exact ⟨"failed to add torrent ", ": " ++ e.message, String.append_assoc ..⟩
  | torrentAdded handle name =>
    obtain rfl : name = n := Option.some.inj h
    exact around_of_leading " added" rfl
  | torrentRemoved handle name =>
    obtain rfl : name = n := Option.some.inj h
    exact around_of_leading " removed" rfl
  | stateChanged handle name previous state =>
    obtain rfl : name = n := Option.some.inj h
    refine around_of_leading (": state changed " ++ previous.name ++ " -> " ++ state.name) ?_
    show name ++ ": state changed " ++ previous.name ++ " -> " ++ state.name = _
    simp only [String.append_assoc]
  | pieceFinished handle name piece =>
    obtain rfl : name = n := Option.some.inj h
    refine around_of_leading (" piece: " ++ piece.text ++ " finished downloading") ?_
    show name ++ " piece: " ++ piece.text ++ " finished downloading" = _
    simp only [String.append_assoc]
  | readPiece handle name piece data error =>
    obtain rfl : name = n := Option.some.inj h
    refine around_of_leading (": piece " ++ piece.text ++ " size " ++ toString data.length) ?_
    show name ++ ": piece " ++ piece.text ++ " size " ++ toString data.length = _
    simp only [String.append_assoc]
  | torrentError handle name error =>
    obtain rfl : name = n := Option.some.inj h
    exact around_of_leading _ (String.append_assoc ..)
  | torrentChecked handle name =>
    obtain rfl : name = n := Option.some.inj h
    exact around_of_leading " checked" rfl
  | saveResumeData handle name =>
    obtain rfl : name = n := Option.some.inj h
    exact around_of_leading " resume data generated" rfl
  | saveResumeDataFailed handle name error =>
    obtain rfl : name = n := Option.some.inj h
    exact around_of_leading _ (String.append_assoc ..)
  | listenSucceeded address => cases h
  | listenFailed address error => cases h
  | log text => cases h

lemma occursIn_message {a : Alert} {n : String} (h : a.torrentName? = some n) :
    occursIn n.toList a.message.toList = true := by
  obtain ⟨before, after, hmessage⟩ := exists_message_eq h
  rw [occursIn_iff, hmessage, String.toList_append, String.toList_append]
  exact List.infix_append _ _ _

def heading (a : Alert) : String :=
  a.torrentName?.elim "" fun n => if occursIn n.toList a.message.toList then "" else n ++ ": "

/-- What a line has after the message. -/
def trailer (a : Alert) : String := a.error?.elim "" errorSuffix

lemma line_eq (a : Alert) :
    a.line = a.kind.name ++ ": " ++ a.heading ++ a.message ++ a.trailer := by
  unfold line heading trailer
  rcases a.torrentName? with _ | n <;> rcases a.error? with _ | e <;> rfl

/-- The name is never put in front of the message. -/
lemma heading_eq (a : Alert) : a.heading = "" := by
  unfold heading
  rcases hname : a.torrentName? with _ | n
  · rfl
  · exact if_pos (occursIn_message hname)

lemma trailer_eq_empty {a : Alert} : a.trailer = "" ↔ a.error? = none := by
  unfold trailer
  rcases a.error? with _ | e
  · simp
  · simp [errorSuffix]

/-- **The line of an alert is its kind, its message and, exactly if it has one, its error.** The
name of its torrent occurs in the message and is therefore never put in front of it. -/
theorem logged_line_exact (a : Alert) :
    (∀ n, a.torrentName? = some n →
      (∃ before after, a.message = before ++ n ++ after) ∧
        occursIn n.toList a.message.toList = true) ∧
      ∃ suffix, a.line = a.kind.name ++ ": " ++ a.message ++ suffix ∧
        (suffix = "" ↔ a.error? = none) ∧
        ∀ e, a.error? = some e →
          suffix = " [" ++ e.message ++ " (" ++ e.domain.name ++ " " ++
          toString e.code ++ ")]" := by
  refine ⟨fun n hn => ⟨exists_message_eq hn, occursIn_message hn⟩, a.trailer, ?_,
    trailer_eq_empty, ?_⟩
  · rw [line_eq, heading_eq, String.append_empty]
  · intro e he
    rw [trailer, he]
    rfl

/-- An add that failed, of a torrent that is called what the message says anyway. -/
theorem logged_line_exact_namesake : ∃ a : Alert,
    a.torrentName? = some "torrent" ∧ a.error? = some ⟨.system, -2, "no torrent"⟩ ∧
      occursIn "torrent".toList a.message.toList = true ∧
      a.line =
      "add_torrent_alert: failed to add torrent torrent: no torrent [no torrent (system -2)]" := by
  obtain ⟨hname, suffix, hline, -, hsuffix⟩ :=
    logged_line_exact (addTorrent none "torrent" (some ⟨.system, -2, "no torrent"⟩))
  refine ⟨_, rfl, rfl, (hname "torrent" rfl).2, ?_⟩
  rw [hline, hsuffix _ rfl]
  decide +kernel

example : (torrentRemoved ⟨0, 1⟩ "").line = "torrent_removed_alert:  removed" := by decide +kernel

end Alert

end TorrentFlow
