import TorrentFlow.Proofs.Services.Steps

/-!
What goes on while one reader is attended to, seen from everybody else: delivery takes some steps of
its own, deadlines are set and reset, and the reader looks into its own mailbox; the other readers
stay as they are, windows stay with their torrents, and the reader itself remains the one that it
was.
-/

namespace TorrentFlow

/-- Two states of one reader: what it reads, and what it has for it, is the same. -/
structure Reader.Kin (r r' : Reader) : Prop where
  handle : r'.handle = r.handle
  window : r'.window = r.window
  subscription : r'.subscription = r.subscription
  pieces : r'.pieces = r.pieces
  ahead : r'.ahead = r.ahead

namespace Reader

lemma Kin.refl (r : Reader) : Kin r r := ⟨rfl, rfl, rfl, rfl, rfl⟩

lemma Kin.trans {r r' r'' : Reader} (h : Kin r r') (h' : Kin r' r'') : Kin r r'' :=
  ⟨h'.handle.trans h.handle, h'.window.trans h.window, h'.subscription.trans h.subscription,
    h'.pieces.trans h.pieces, h'.ahead.trans h.ahead⟩

lemma kin_ended (r : Reader) : Kin r r.ended := ⟨rfl, rfl, rfl, rfl, rfl⟩

lemma kin_slide (r : Reader) (pieces : OrderedSet Piece) : Kin r (r.slide pieces) :=
  ⟨rfl, rfl, rfl, rfl, rfl⟩

lemma kin_take {r r' : Reader} {a : Alert} (h : r.take a = .ok r') : Kin r r' := by
  obtain ⟨ready, rfl⟩ := take_ok h
  exact ⟨rfl, rfl, rfl, rfl, rfl⟩

def marked (r : Reader) (e : PieceError) : Reader :=
  { r with handleInvalid := r.handleInvalid || decide (e = .handleInvalid) }

lemma kin_marked (r : Reader) (e : PieceError) : Kin r (r.marked e) := ⟨rfl, rfl, rfl, rfl, rfl⟩

end Reader

namespace Services

open Delivery (Note)

lemma failReader_snd {σ : Type} [Engine σ] {p : Pipeline σ} {id : Nat} {r : Reader}
    (hr : p.readers.get? id = some r) (e : PieceError) :
    (p.failReader id e).2 = (p.putReader id (r.marked e)).endReader id := by
  simp only [Pipeline.failReader, hr]
  rfl

/-- What delivery does on behalf of a reader with this subscription. -/
def Own (sub : Nat) : Note → Prop
  | .called _ call => call.isTending = true
  | .received id _ => id = sub
  | .left _ => False
  | .stopped => False
  | .quiet => True

/-- From `p` to `q` only the reader `id`, with this subscription, was attended to. -/
structure Attended (id sub : Nat) (p q : Pipeline Simulated) : Prop where
  run : ∃ notes, Delivery.Run p notes q ∧ ∀ note ∈ notes, Own sub note
  others : ∀ j, j ≠ id → q.readers.get? j = p.readers.get? j
  itself : ∀ r, p.readers.get? id = some r → ∃ r', q.readers.get? id = some r' ∧ r.Kin r'
  sorted : p.readers.Sorted → q.readers.Sorted
  windows : ∀ k, (q.windows.windows.get? k).map (·.handle) =
    (p.windows.windows.get? k).map (·.handle)
  current : ∀ h k, q.windows.current.get? h = some k → p.windows.current.get? h = some k
  next : q.windows.next = p.windows.next
  waiters : q.waiters = p.waiters
  nextScope : q.nextScope = p.nextScope
  janitor : q.janitor = p.janitor
  settings : q.settings = p.settings

namespace Attended

variable {id sub : Nat}

lemma refl (p : Pipeline Simulated) : Attended id sub p p where
  run := ⟨[], .nil p, by simp⟩
  others _ _ := rfl
  itself r hr := ⟨r, hr, .refl r⟩
  sorted h := h
  windows _ := rfl
  current _ _ h := h
  next := rfl
  waiters := rfl
  nextScope := rfl
  janitor := rfl
  settings := rfl

lemma trans {p q r : Pipeline Simulated} (h : Attended id sub p q) (h' : Attended id sub q r) :
    Attended id sub p r where
  run := by
    obtain ⟨notes, hrun, hown⟩ := h.run
    obtain ⟨notes', hrun', hown'⟩ := h'.run
    exact ⟨notes ++ notes', hrun.trans hrun', fun note hn =>
      (List.mem_append.mp hn).elim (hown note) (hown' note)⟩
  others j hj := (h'.others j hj).trans (h.others j hj)
  itself r hr := by
    obtain ⟨r', hr', hk⟩ := h.itself r hr
    obtain ⟨r'', hr'', hk'⟩ := h'.itself r' hr'
    exact ⟨r'', hr'', hk.trans hk'⟩
  sorted hs := h'.sorted (h.sorted hs)
  windows k := (h'.windows k).trans (h.windows k)
  current g k hk := h.current g k (h'.current g k hk)
  next := h'.next.trans h.next
  waiters := h'.waiters.trans h.waiters
  nextScope := h'.nextScope.trans h.nextScope
  janitor := h'.janitor.trans h.janitor
  settings := h'.settings.trans h.settings

lemma putReader {p : Pipeline Simulated} {r r' : Reader} (hr : p.readers.get? id = some r)
    (hk : r.Kin r') : Attended id sub p (p.putReader id r') where
  run := ⟨[], (Delivery.Run.nil p).aside p.windows (p.readers.set id r') p.waiters p.nextScope
    p.janitor p.now p.notices, by simp⟩
  others j hj := by rw [get?_putReader, if_neg hj]
  itself r₀ hr₀ := by
    rw [hr, Option.some.injEq] at hr₀
    exact ⟨r', get?_putReader_self _ _ _, hr₀ ▸ hk⟩
  sorted h := h.set id r'
  windows _ := rfl
  current _ _ h := h
  next := rfl
  waiters := rfl
  nextScope := rfl
  janitor := rfl
  settings := rfl

lemma pollSubscription (p : Pipeline Simulated) :
    Attended id sub p (p.pollSubscription sub).2 where
  run := ⟨_, .one (.receive p sub), fun note hn => by
    rw [List.mem_singleton.mp hn]
    rfl⟩
  others _ _ := rfl
  itself r hr := ⟨r, hr, .refl r⟩
  sorted h := h
  windows _ := rfl
  current _ _ h := h
  next := rfl
  waiters := rfl
  nextScope := rfl
  janitor := rfl
  settings := rfl

/-- The calls of a move, as steps of delivery. -/
lemma run_calls (calls : List EngineCall) (hc : ∀ c ∈ calls, c.isTending = true)
    (p : Pipeline Simulated) : ∃ notes,
      Delivery.Run p notes { p with engine := EngineCall.applyAll p.engine calls } ∧
        ∀ note ∈ notes, Own sub note := by
  induction calls generalizing p with
  | nil => exact ⟨[], .nil p, by simp⟩
  | cons c rest ih =>
    obtain ⟨notes, hrun, hown⟩ :=
      ih (fun c hmem => hc c (by simp [hmem])) { p with engine := c.apply p.engine }
    refine ⟨[.called p.engine c] ++ notes, (Delivery.Run.one (.call p c)).trans hrun, ?_⟩
    intro note hn
    rcases List.mem_append.mp hn with hn | hn
    · rw [List.mem_singleton.mp hn]
      exact hc c (by simp)
    · exact hown note hn

lemma windows_put (p : Pipeline Simulated) {k : Nat} {w w' : Window}
    (hw : p.windows.windows.get? k = some w) (hh : w'.handle = w.handle) (j : Nat) :
    ((p.windows.put k w').windows.get? j).map (·.handle) =
      (p.windows.windows.get? j).map (·.handle) := by
  simp only [Windows.put, Table.get?_set]
  split_ifs with hj
  · rw [hj, hw, Option.map_some, Option.map_some, hh]
  · rfl

lemma moveClaims (p : Pipeline Simulated) (window : Nat) (old new : OrderedSet Piece) :
    Attended id sub p (p.moveClaims window old new).2 := by
  rcases hw : p.windows.windows.get? window with _ | w
  · rw [moveClaims_none hw]
    exact refl p
  · obtain ⟨calls, heq, hall⟩ := w.calls_delta old new p.engine
    obtain ⟨notes, hrun, hown⟩ : ∃ notes, Delivery.Run p notes _ ∧ ∀ note ∈ notes, Own sub note :=
      run_calls calls (fun c hc => (hall c hc).1) p
    rw [moveClaims_some hw]
    refine ⟨⟨notes, ?_, hown⟩, fun _ _ => rfl, fun r hr => ⟨r, hr, .refl r⟩, fun h => h, ?_,
      fun _ _ h => h, rfl, rfl, rfl, rfl, rfl⟩
    · rw [heq]
      exact hrun.aside _ _ _ _ _ _ _
    · exact windows_put p hw (w.handle_delta old new p.engine)

lemma discardClaims (p : Pipeline Simulated) (window : Nat) (pieces : OrderedSet Piece) :
    Attended id sub p (p.discardClaims window pieces) := by
  unfold Pipeline.discardClaims
  rcases hw : p.windows.windows.get? window with _ | w
  · exact refl p
  · exact ⟨⟨[], (Delivery.Run.nil p).aside _ _ _ _ _ _ _, by simp⟩, fun _ _ => rfl,
      fun r hr => ⟨r, hr, .refl r⟩, fun h => h, windows_put p hw (w.handle_discard pieces),
      fun _ _ h => h, rfl, rfl, rfl, rfl, rfl⟩

lemma forgetWindow (h : Handle) (p : Pipeline Simulated) :
    Attended id sub p (p.forgetWindow h).2 := by
  refine ⟨⟨[], (Delivery.Run.nil p).aside _ _ _ _ _ _ _, by simp⟩, fun _ _ => rfl,
    fun r hr => ⟨r, hr, .refl r⟩, fun h => h, fun _ => rfl, fun g k hk => ?_, rfl, rfl,
    rfl, rfl, rfl⟩
  simp only [Pipeline.forgetWindow, Windows.forget, Table.get?_erase] at hk
  split_ifs at hk
  exact hk

/-! ### Ending, sliding, asking -/

lemma endReader {p : Pipeline Simulated} {r : Reader} (hr : p.readers.get? id = some r) :
    Attended id sub p (p.endReader id) := by
  have hput : Attended id sub p (p.putReader id r.ended) := putReader hr r.kin_ended
  unfold Pipeline.endReader
  simp only [hr]
  split_ifs
  · exact (hput.trans (discardClaims _ _ _)).trans (forgetWindow _ _)
  · exact hput
  · exact hput.trans (moveClaims _ _ _ _)

lemma failReader {p : Pipeline Simulated} {r : Reader} (hr : p.readers.get? id = some r)
    (e : PieceError) : Attended id sub p (p.failReader id e).2 := by
  have hput : Attended id sub p (p.putReader id (r.marked e)) := putReader hr (r.kin_marked e)
  rw [failReader_snd hr]
  exact hput.trans (endReader (get?_putReader_self _ _ _))

lemma slideReader {p : Pipeline Simulated} {r : Reader} (hr : p.readers.get? id = some r)
    (pieces : OrderedSet Piece) : Attended id sub p (p.slideReader id r pieces).2 := by
  unfold Pipeline.slideReader
  split_ifs
  · exact refl p
  · exact (putReader hr (r.kin_slide pieces)).trans (moveClaims _ _ _ _)

lemma reader {p q : Pipeline Simulated} (h : Attended id sub p q) {r : Reader}
    (hr : p.readers.get? id = some r) (hsub : r.subscription = sub) :
    ∃ r', q.readers.get? id = some r' ∧ r'.subscription = sub := by
  obtain ⟨r', hr', hk⟩ := h.itself r hr
  exact ⟨r', hr', hk.subscription.trans hsub⟩

lemma reading {p q : Pipeline Simulated} {answer : Polled (Except PieceError PieceData)}
    (h : Reading id p answer q) : ∀ r, p.readers.get? id = some r → r.subscription = sub →
      Attended id sub p q := by
  induction h with
  | served hr hs =>
    intro _ _ _
    obtain ⟨rfl, -⟩ := Reader.serve_ok hs
    exact putReader hr ⟨rfl, rfl, rfl, rfl, rfl⟩
  | @soured p r r' e hr hs =>
    intro _ _ _
    obtain ⟨rfl, -⟩ := Reader.serve_error hs
    let next : Reader := { r with cursor := r.cursor + 1 }
    have hput : Attended id sub p (p.putReader id next) := putReader hr ⟨rfl, rfl, rfl, rfl, rfl⟩
    exact hput.trans (failReader (get?_putReader_self _ _ _) _)
  | waited hr =>
    intro r hr' hsub
    rw [hr, Option.some.injEq] at hr'
    rw [hr', hsub]
    exact pollSubscription _
  | @failed p r e hr =>
    intro r' hr' hsub
    rw [hr, Option.some.injEq] at hr'
    rw [← hr'] at hsub
    rw [hsub]
    exact (pollSubscription p).trans (failReader (p := (p.pollSubscription sub).2) hr _)
  | @ousted p r a e hr =>
    intro r' hr' hsub
    rw [hr, Option.some.injEq] at hr'
    rw [← hr'] at hsub
    rw [hsub]
    exact (pollSubscription p).trans (failReader (p := (p.pollSubscription sub).2) hr _)
  | @took p q r r' a answer hr hs hp ht h ih =>
    intro r₀ hr₀ hsub
    rw [hr, Option.some.injEq] at hr₀
    rw [← hr₀] at hsub
    have hk := Reader.kin_take ht
    rw [hsub] at ih
    refine ((pollSubscription p).trans (putReader hr hk)).trans (ih r' ?_ ?_)
    · exact get?_putReader_self _ _ _
    · rw [hk.subscription, hsub]

/-- **A poll is nobody's business but the reader's.** -/
theorem polls {p q : Pipeline Simulated} {r : Reader}
    {answer : Polled (Except PieceError PieceData)} (hr : p.readers.get? id = some r)
    (h : Polls id p r answer q) :
    Attended id r.subscription p q := by
  cases h with
  | past => exact refl p
  | ended => exact endReader hr
  | overflow => exact refl p
  | refused => exact failReader hr _
  | slipped _ _ _ _ hm =>
    have hslide : ∀ pieces, Attended id r.subscription p (p.slideReader id r pieces).2 :=
      slideReader hr
    exact (hslide _).trans (failReader (get?_slideReader p id hr _) _)
  | went _ _ _ _ _ h =>
    have hslide : ∀ pieces, Attended id r.subscription p (p.slideReader id r pieces).2 :=
      slideReader hr
    obtain ⟨r', hr', hsub⟩ := (hslide _).reader hr rfl
    exact (hslide _).trans (reading h r' hr' hsub)

end Attended

end Services

end TorrentFlow
