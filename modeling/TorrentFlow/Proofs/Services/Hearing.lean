import TorrentFlow.Proofs.Services.Outcome

/-!
What a reader hears, over any engine. A call consumes alerts from the head of the reader's mailbox,
one after another, until it has an answer or nothing is left. What was said last of a piece that is
wanted is what the reader keeps of it, and how the call ends is read off the reader that has heard
all this.
-/

namespace TorrentFlow

def Alert.says? (x : Piece) : Alert → Option (Except EngineError Payload)
  | .readPiece _ _ p data error =>
    if p = x then
      some (match error with
        | some e => .error e
        | none => .ok data)
    else none
  | _ => none

/-- The last that some alerts say of a piece, or else what was known of it before. -/
def lastSaid (x : Piece) (known : Option (Except EngineError Payload)) (heard : List Alert) :
    Option (Except EngineError Payload) :=
  heard.foldl (fun known a => (a.says? x).or known) known

@[simp] lemma lastSaid_nil (x : Piece) (known : Option (Except EngineError Payload)) :
    lastSaid x known [] = known := rfl

@[simp] lemma lastSaid_cons (x : Piece) (known : Option (Except EngineError Payload)) (a : Alert)
    (heard : List Alert) : lastSaid x known (a :: heard) =
    lastSaid x ((a.says? x).or known) heard := rfl

lemma lastSaid_append (x : Piece) (known : Option (Except EngineError Payload))
    (heard heard' : List Alert) :
    lastSaid x known (heard ++ heard') = lastSaid x (lastSaid x known heard) heard' := by
  simp [lastSaid]

/-- What nobody contradicts stays. -/
lemma lastSaid_of_agreed {x : Piece} {w : Except EngineError Payload} {heard : List Alert}
    (h : ∀ a ∈ heard, ∀ w', a.says? x = some w' → w' = w) : lastSaid x (some w) heard = some w := by
  induction heard with
  | nil => rfl
  | cons a rest ih =>
    have hsame : (a.says? x).or (some w) = some w := by
      rcases ha : a.says? x with _ | w'
      · rfl
      · rw [h a (by simp) w' ha]
        rfl
    rw [lastSaid_cons, hsame]
    exact ih fun b hb => h b (by simp [hb])

namespace Reader

/-- The reader after it has taken in some alerts, unless one of them ends it. -/
def hear (r : Reader) (heard : List Alert) : Except PieceError Reader := heard.foldlM take r

lemma hear_cons {r r₁ : Reader} {a : Alert} (h : r.take a = .ok r₁) (heard : List Alert) :
    r.hear (a :: heard) = r₁.hear heard := by
  simp only [hear, List.foldlM_cons, h]
  rfl

lemma get?_take {r r' : Reader} {a : Alert} (h : r.take a = .ok r') {x : Piece}
    (hx : x ∈ r.current) :
    r'.ready.get? x = (a.says? x).or (r.ready.get? x) := by
  cases a with
  | readPiece g name p data error =>
    simp only [take] at h
    by_cases hp : r.current.contains p = true
    · rw [if_pos hp] at h
      cases h
      rw [Table.get?_set]
      by_cases hpx : p = x
      · subst hpx
        rcases error <;> simp [Alert.says?]
      · simp [Alert.says?, hpx, Ne.symm hpx]
    · rw [if_neg hp] at h
      cases h
      have hpx : p ≠ x := fun heq => hp (OrderedSet.contains_iff.mpr (heq ▸ hx))
      simp [Alert.says?, hpx]
  | torrentRemoved => cases h
  | _ =>
    cases h
    rfl

/-- **What was said last of a wanted piece is what is kept of it**, and nothing else changes. -/
theorem hear_ok {r r' : Reader} {heard : List Alert} (h : r.hear heard = .ok r') :
    ∃ ready, r' = { r with ready } ∧
      ∀ x ∈ r.current, ready.get? x = lastSaid x (r.ready.get? x) heard := by
  induction heard generalizing r with
  | nil =>
    obtain rfl := Except.ok.inj h
    exact ⟨_, rfl, fun _ _ => rfl⟩
  | cons a rest ih =>
    rcases ht : r.take a with e | r₁
    · simp only [hear, List.foldlM_cons, ht] at h
      cases h
    · rw [hear_cons ht] at h
      have hget := fun x (hx : x ∈ r.current) => get?_take ht hx
      obtain ⟨ready₁, rfl⟩ := take_ok ht
      obtain ⟨ready, rfl, hready⟩ := ih h
      refine ⟨ready, rfl, fun x hx => ?_⟩
      rw [hready x hx, lastSaid_cons, ← hget x hx]

/-- Only the news that the torrent was removed is not taken in. -/
lemma take_error {r : Reader} {a : Alert} {e : PieceError} (h : r.take a = .error e) :
    e = .handleInvalid ∧ ∃ handle name, a = .torrentRemoved handle name := by
  cases a with
  | readPiece =>
    simp only [take] at h
    split_ifs at h
  | torrentRemoved handle name =>
    cases h
    exact ⟨rfl, handle, name, rfl⟩
  | _ => cases h

lemma take_back {r r' : Reader} {a : Alert} (h : r.take a = .ok r') {x : Piece}
    {w : Except EngineError Payload} (hw : r'.ready.get? x = some w) :
    r.ready.get? x = some w ∨ a.says? x = some w := by
  by_cases hx : x ∈ r.current
  · rw [get?_take h hx] at hw
    rcases ha : a.says? x with _ | w'
    · rw [ha, Option.none_or] at hw
      exact .inl hw
    · rw [ha, Option.some_or] at hw
      exact .inr hw
  · cases a with
    | readPiece g name p data error =>
      simp only [take] at h
      split_ifs at h with hp
      · cases h
        rw [Table.get?_set] at hw
        split_ifs at hw with hpx
        · exact absurd (OrderedSet.contains_iff.mp (hpx ▸ hp)) hx
        · exact .inl hw
      · cases h
        exact .inl hw
    | torrentRemoved => cases h
    | _ =>
      cases h
      exact .inl hw

lemma hear_back {r r' : Reader} {heard : List Alert} (h : r.hear heard = .ok r') {x : Piece}
    {w : Except EngineError Payload} (hw : r'.ready.get? x = some w) :
    r.ready.get? x = some w ∨ ∃ a ∈ heard, a.says? x = some w := by
  induction heard generalizing r with
  | nil =>
    obtain rfl := Except.ok.inj h
    exact .inl hw
  | cons a rest ih =>
    rcases ht : r.take a with e | r₁
    · simp only [hear, List.foldlM_cons, ht] at h
      cases h
    · rw [hear_cons ht] at h
      rcases ih h with hw₁ | ⟨b, hb, hsays⟩
      · exact (take_back ht hw₁).imp_right fun hsays => ⟨a, by simp, hsays⟩
      · exact .inr ⟨b, by simp [hb], hsays⟩

def wanting (r : Reader) (pieces : OrderedSet Piece) : Reader :=
  if pieces = r.current then r else r.slide pieces

lemma kin_wanting (r : Reader) (pieces : OrderedSet Piece) : r.Kin (r.wanting pieces) := by
  unfold wanting
  split_ifs
  · exact .refl r
  · exact r.kin_slide pieces

@[simp] lemma cursor_wanting (r : Reader) (pieces : OrderedSet Piece) :
    (r.wanting pieces).cursor = r.cursor := by
  unfold wanting
  split_ifs <;> rfl

@[simp] lemma current_wanting (r : Reader) (pieces : OrderedSet Piece) :
    (r.wanting pieces).current = pieces := by
  unfold wanting
  split_ifs with h
  · exact h.symm
  · rfl

lemma get?_wanting (r : Reader) {pieces : OrderedSet Piece} {x : Piece} (hx : x ∈ pieces) :
    (r.wanting pieces).ready.get? x = r.ready.get? x := by
  unfold wanting
  split_ifs
  · rfl
  · rw [slide, Table.get?_filterKeys, if_pos (OrderedSet.contains_iff.mpr hx)]

lemma wanting_back {r : Reader} {pieces : OrderedSet Piece} {x : Piece}
    {w : Except EngineError Payload} (h : (r.wanting pieces).ready.get? x = some w) :
    r.ready.get? x = some w := by
  unfold wanting at h
  split_ifs at h
  · exact h
  · rw [slide, Table.get?_filterKeys] at h
    split_ifs at h
    exact h

lemma mem_upcoming {r : Reader} {pieces : OrderedSet Piece} (hu : r.upcoming? = some pieces)
    {x : Piece} {j : Nat} (hx : r.pieces[j]? = some x) (hj : r.cursor ≤ j)
    (hahead : j < r.cursor + r.ahead) : x ∈ pieces := by
  rw [upcoming?_eq hu, OrderedSet.mem_ofList, List.mem_iff_getElem?]
  refine ⟨j - r.cursor, ?_⟩
  rw [List.getElem?_take_of_lt (by omega), List.getElem?_drop, Nat.add_sub_cancel' hj, hx]

/-- What is told of a piece whose turn it is. -/
def verdict (x : Piece) : Except EngineError Payload → Except PieceError PieceData
  | .ok data => .ok ⟨x, data⟩
  | .error e => .error (.ofEngine e)

lemma serve_of_known {r : Reader} {x : Piece} (hx : r.pieces[r.cursor]? = some x)
    {w : Except EngineError Payload} (hw : r.ready.get? x = some w) :
    r.serve? = some (verdict x w, { r with cursor := r.cursor + 1 }) := by
  simp only [serve?, hx, hw]
  rcases w with e | data <;> rfl

end Reader

/-- The mailbox has nothing to hand out but the news why. -/
def Mailbox.Ends (m : Mailbox) (e : DeliveryError) : Prop :=
  m.failure = some e ∨ e = .shutdown ∧ m.closed = true

namespace Hub

def mailbox? (h : Hub) (sub : Nat) : Option Mailbox := (h.subscriptions.get? sub).map (·.mailbox)

def pending (h : Hub) (sub : Nat) : List Alert := ((h.mailbox? sub).map (·.queue)).getD []

def Ends (h : Hub) (sub : Nat) (e : DeliveryError) : Prop := ∃ m, h.mailbox? sub = some m ∧ m.Ends e

lemma mailbox?_poll (h : Hub) (sub : Nat) :
    (h.poll sub).2.mailbox? sub = (h.mailbox? sub).map fun m => (m.poll h.busy).2.1 := by
  rw [poll_snd, mailbox?, get?_onMailbox, if_pos rfl, mailbox?, Option.map_map, Option.map_map]
  rfl

/-- **Whoever asks is handed the first alert that waits, or is told why there is none.** -/
lemma poll_cases (h : Hub) (sub : Nat) :
    h.pending sub = Mailbox.handed (h.poll sub).1 ++ (h.poll sub).2.pending sub ∧
      (∀ e, (h.poll sub).1 = some (.error e) → h.Ends sub e) ∧
      ∀ e, (h.poll sub).2.Ends sub e → h.Ends sub e := by
  unfold pending Ends
  rw [mailbox?_poll, poll_fst, mailbox?]
  rcases h.subscriptions.get? sub with _ | s
  · refine ⟨rfl, fun e he => ?_, ?_⟩
    · cases he
    rintro e ⟨m, hm, -⟩
    cases hm
  · have hl := Mailbox.looked_poll s.mailbox h.busy
    refine ⟨hl.queue, fun e he => ⟨_, rfl, hl.error e he⟩, ?_⟩
    rintro e ⟨m, hm, hends⟩
    obtain rfl := Option.some.inj hm
    refine ⟨_, rfl, ?_⟩
    rwa [Mailbox.Ends, hl.failure, hl.closed] at hends

end Hub

namespace Services

variable {σ : Type} [Engine σ]

lemma get?_slid {p : Pipeline σ} {id : Nat} {r : Reader} (hr : p.readers.get? id = some r)
    (pieces : OrderedSet Piece) : (p.slideReader id r pieces).2.readers.get? id =
    some (r.wanting pieces) :=
  get?_slideReader p id hr pieces

/-! ### How a call ends -/

/-- How a reader fares that reads on: what it hears, what it answers, and what it is after that. -/
inductive Fares (ends : DeliveryError → Prop) (r : Reader) :
    List Alert → Polled (Except PieceError PieceData) → Reader → Prop
  | served {heard : List Alert} {r₁ r' : Reader} {d : PieceData} (hh : r.hear heard = .ok r₁)
      (hs : r₁.serve? = some (.ok d, r')) : Fares ends r heard (.item (.ok d)) r'
  | soured {heard : List Alert} {r₁ r₂ r' : Reader} {e : PieceError} (hh : r.hear heard = .ok r₁)
      (hs : r₁.serve? = some (.error e, r₂)) (hf : r'.finished = true) (hempty : r'.ready = {}) :
    Fares ends r heard (.item (.error e)) r'
  | waited {heard : List Alert} {r₁ : Reader} (hh : r.hear heard = .ok r₁) (hs : r₁.serve? = none) :
    Fares ends r heard .pending r₁
  | failed {heard : List Alert} {r₁ r' : Reader} {e : DeliveryError} (hh : r.hear heard = .ok r₁)
      (hs : r₁.serve? = none) (he : ends e) (hf : r'.finished = true) (hempty : r'.ready = {}) :
    Fares ends r heard (.item (.error (.ofDelivery e))) r'
  | ousted {heard : List Alert} {a : Alert} {r₁ r' : Reader} {e : PieceError}
      (hh : r.hear heard = .ok r₁)
      (hs : r₁.serve? = none) (ht : r₁.take a = .error e) (hf : r'.finished = true)
      (hempty : r'.ready = {}) :
    Fares ends r (heard ++ [a]) (.item (.error e)) r'

lemma Fares.took {ends ends' : DeliveryError → Prop} (hends : ∀ e, ends' e → ends e)
    {r r₁ r' : Reader} {a : Alert} (ht : r.take a = .ok r₁) {heard : List Alert}
    {answer : Polled (Except PieceError PieceData)} (h : Fares ends' r₁ heard answer r') :
    Fares ends r (a :: heard) answer r' := by
  cases h with
  | served hh hs => exact .served ((Reader.hear_cons ht _).trans hh) hs
  | soured hh hs hf hempty => exact .soured ((Reader.hear_cons ht _).trans hh) hs hf hempty
  | waited hh hs => exact .waited ((Reader.hear_cons ht _).trans hh) hs
  | failed hh hs he hf hempty =>
    exact .failed ((Reader.hear_cons ht _).trans hh) hs (hends _ he) hf hempty
  | @ousted heard' _ _ _ _ hh hs ht' hf hempty =>
    rw [← List.cons_append]
    exact .ousted ((Reader.hear_cons ht _).trans hh) hs ht' hf hempty

lemma hub_moveClaims (p : Pipeline σ) (window : Nat) (old new : OrderedSet Piece) :
    (p.moveClaims window old new).2.hub = p.hub := by
  rcases h : p.windows.windows.get? window with _ | w
  · rw [moveClaims_none h]
  · rw [moveClaims_some h]

lemma hub_slideReader (p : Pipeline σ) (id : Nat) (r : Reader) (pieces : OrderedSet Piece) :
    (p.slideReader id r pieces).2.hub = p.hub := by
  unfold Pipeline.slideReader
  split_ifs
  · rfl
  · rw [hub_moveClaims]
    rfl

lemma hub_endReader (p : Pipeline σ) (id : Nat) : (p.endReader id).hub = p.hub := by
  unfold Pipeline.endReader
  rcases p.readers.get? id with _ | r
  · rfl
  · dsimp only
    split_ifs
    · unfold Pipeline.discardClaims
      split <;> rfl
    · rfl
    · rw [hub_moveClaims]
      rfl

lemma hub_failReader (p : Pipeline σ) (id : Nat) (e : PieceError) :
    (p.failReader id e).2.hub = p.hub := by
  unfold Pipeline.failReader
  rw [hub_endReader]
  rcases p.readers.get? id with _ | r <;> rfl

/-- **Whoever reads on hears what is at the head of its mailbox.** -/
theorem fares_reading {id : Nat} {p q : Pipeline σ} {answer : Polled (Except PieceError PieceData)}
    (h : Reading id p answer q) {r : Reader} (hr : p.readers.get? id = some r) :
    ∃ heard r', q.readers.get? id = some r' ∧
      p.hub.pending r.subscription = heard ++ q.hub.pending r.subscription ∧
      Fares (p.hub.Ends r.subscription) r heard answer r' := by
  induction h generalizing r with
  | @served p _ r' d hr' hs =>
    obtain rfl := Option.some.inj (hr.symm.trans hr')
    exact ⟨[], r', get?_putReader_self p id r', rfl, .served rfl hs⟩
  | @soured p _ r' e hr' hs =>
    obtain rfl := Option.some.inj (hr.symm.trans hr')
    obtain ⟨r'', hget, hf, -, hempty⟩ := get?_failReader (get?_putReader_self p id r') e
    refine ⟨[], r'', hget, ?_, .soured rfl hs hf hempty⟩
    rw [hub_failReader]
    rfl
  | @waited p _ hr' hs hp =>
    obtain rfl := Option.some.inj (hr.symm.trans hr')
    obtain ⟨hpending, -, -⟩ := p.hub.poll_cases r.subscription
    rw [show (p.hub.poll r.subscription).1 = none from hp] at hpending
    exact ⟨[], r, hr, hpending, .waited rfl hs⟩
  | @failed p _ e hr' hs hp =>
    -- the mailbox is empty and has failed, so that nothing is heard
    obtain rfl := Option.some.inj (hr.symm.trans hr')
    obtain ⟨hpending, hends, -⟩ := p.hub.poll_cases r.subscription
    rw [show (p.hub.poll r.subscription).1 = some (.error e) from hp] at hpending
    obtain ⟨r', hget, hf, -, hempty⟩ :=
      get?_failReader (p := (p.pollSubscription r.subscription).2) hr (.ofDelivery e)
    refine ⟨[], r', hget, ?_, .failed rfl hs (hends e hp) hf hempty⟩
    rw [hub_failReader]
    exact hpending
  | @ousted p _ a e hr' hs hp ht =>
    -- the alert that ousts it is the last that it hears
    obtain rfl := Option.some.inj (hr.symm.trans hr')
    obtain ⟨hpending, -, -⟩ := p.hub.poll_cases r.subscription
    rw [show (p.hub.poll r.subscription).1 = some (.ok a) from hp] at hpending
    obtain ⟨r', hget, hf, -, hempty⟩ :=
      get?_failReader (p := (p.pollSubscription r.subscription).2) hr e
    have hfares : Fares (p.hub.Ends r.subscription) r ([] ++ [a]) (.item (.error e)) r' :=
      .ousted rfl hs ht hf hempty
    refine ⟨[a], r', hget, ?_, hfares⟩
    rw [hub_failReader]
    exact hpending
  | @took p q _ r₁ a answer hr' hs hp ht _ ih =>
    obtain rfl := Option.some.inj (hr.symm.trans hr')
    obtain ⟨hpending, -, hends⟩ := p.hub.poll_cases r.subscription
    rw [show (p.hub.poll r.subscription).1 = some (.ok a) from hp] at hpending
    obtain ⟨heard, r', hget, hrest, hfares⟩ := ih (get?_putReader_self _ id r₁)
    rw [(Reader.kin_take ht).subscription] at hrest hfares
    refine ⟨a :: heard, r', hget, ?_, hfares.took hends ht⟩
    rw [hpending]
    exact congrArg (a :: ·) hrest

/-- The alerts that the next call of a reader consumes: those at the head of its mailbox that are
gone after it. -/
def consumed (id : Nat) (p : Pipeline σ) : List Alert :=
  match p.readers.get? id with
  | none => []
  | some r =>
    (p.hub.pending r.subscription).take ((p.hub.pending r.subscription).length -
      ((p.pollReader id).2.hub.pending r.subscription).length)

lemma consumed_eq {id : Nat} {p : Pipeline σ} {r : Reader} (hr : p.readers.get? id = some r)
    {heard : List Alert} (h : p.hub.pending r.subscription =
      heard ++ (p.pollReader id).2.hub.pending r.subscription) :
    consumed id p = heard := by
  simp only [consumed, hr]
  rw [h, List.length_append, Nat.add_sub_cancel, List.take_left]

/-- The next call of a reader comes as far as to its mailbox, with these pieces wanted: it is not at
its end, the pieces can be told, none of them is impossible, and the window is slid to them without
an error. -/
structure GoesOn (id : Nat) (p : Pipeline σ) (r : Reader) (pieces : OrderedSet Piece) : Prop where
  live : r.finished = false
  within : r.cursor < r.pieces.length
  upcoming : r.upcoming? = some pieces
  possible : Reader.negative? pieces = none
  slid : (p.slideReader id r pieces).1 = none

lemma GoesOn.pollReader {id : Nat} {p : Pipeline σ} {r : Reader} {pieces : OrderedSet Piece}
    (h : GoesOn id p r pieces) (hr : p.readers.get? id = some r) :
    p.pollReader id = (p.slideReader id r pieces).2.readOn
      ((p.slideReader id r pieces).2.hub.backlog r.subscription + 1) id := by
  simp only [Pipeline.pollReader, hr, h.live, Bool.false_eq_true, if_false, Nat.not_le.mpr h.within,
    h.upcoming, h.possible]
  rcases hm : p.slideReader id r pieces with ⟨failure, p'⟩
  obtain rfl : failure = none := (congrArg Prod.fst hm).symm.trans h.slid
  rfl

/-- A call that comes as far as to the mailbox is answered by what it consumes there. -/
theorem fares_call {id : Nat} {p : Pipeline σ} {r : Reader} (hr : p.readers.get? id = some r)
    {pieces : OrderedSet Piece} (hgo : GoesOn id p r pieces) :
    ∃ r', (p.pollReader id).2.readers.get? id = some r' ∧
      Fares (p.hub.Ends r.subscription) (r.wanting pieces) (consumed id p)
      (p.pollReader id).1 r' := by
  have hpolls := polls_pollReader hr
  generalize hq : (p.pollReader id).2 = q at hpolls ⊢
  generalize (p.pollReader id).1 = answer at hpolls ⊢
  cases hpolls with
  | past hf => rw [hgo.live] at hf; cases hf
  | ended _ hc => exact absurd hgo.within (Nat.not_lt.mpr hc)
  | overflow _ _ hu => rw [hgo.upcoming] at hu; cases hu
  | refused _ _ hu hn =>
    obtain rfl := Option.some.inj (hgo.upcoming.symm.trans hu)
    rw [hgo.possible] at hn
    cases hn
  | slipped _ _ hu _ hm =>
    obtain rfl := Option.some.inj (hgo.upcoming.symm.trans hu)
    rw [hgo.slid] at hm
    cases hm
  | went _ _ hu _ _ h =>
    -- the other cases end before the mailbox is looked at
    obtain rfl := Option.some.inj (hgo.upcoming.symm.trans hu)
    obtain ⟨heard, r', hget, hpending, hfares⟩ := fares_reading h (get?_slid hr pieces)
    have hsub := (r.kin_wanting pieces).subscription
    rw [hsub, hub_slideReader] at hpending hfares
    refine ⟨r', hget, ?_⟩
    rw [consumed_eq hr (by rw [hq]; exact hpending)]
    exact hfares

/-- A call leaves a reader as it is, or ends it, or comes as far as to the mailbox. -/
theorem call_cases {id : Nat} {p : Pipeline σ} {r r' : Reader} (hr : p.readers.get? id = some r)
    (hr' : (p.pollReader id).2.readers.get? id = some r') :
    (r' = r ∧ consumed id p = []) ∨ (r'.finished = true ∧ r'.ready = {}) ∨
    ∃ pieces, GoesOn id p r pieces := by
  have hend : ∀ {e : PieceError} {q : Pipeline σ} {r₁ : Reader}, q.readers.get? id = some r₁ →
      (q.failReader id e).2.readers.get? id = some r' → r'.finished = true ∧ r'.ready = {} :=
      fun hr₁ hget => by
    obtain ⟨r₂, hr₂, hf, -, hempty⟩ := get?_failReader hr₁ _
    obtain rfl := Option.some.inj (hr₂.symm.trans hget)
    exact ⟨hf, hempty⟩
  have hpolls := polls_pollReader hr
  generalize hq : (p.pollReader id).2 = q at hpolls hr'
  generalize (p.pollReader id).1 = answer at hpolls
  cases hpolls with
  | past | overflow =>
    refine .inl ⟨Option.some.inj (hr'.symm.trans hr), consumed_eq hr ?_⟩
    rw [hq]
    rfl
  | ended _ _ =>
    obtain rfl := Option.some.inj ((get?_endReader hr).symm.trans hr')
    exact .inr (.inl ⟨rfl, rfl⟩)
  | refused _ _ _ _ => exact .inr (.inl (hend hr hr'))
  | slipped _ _ _ _ _ => exact .inr (.inl (hend (get?_slid hr _) hr'))
  | went hf hc hu hn hm _ => exact .inr (.inr ⟨_, hf, hc, hu, hn, hm⟩)

end Services

end TorrentFlow
