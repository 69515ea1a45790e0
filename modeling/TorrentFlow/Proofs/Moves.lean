import TorrentFlow.Proofs.Windows

/-!
One move of a window over any engine, whatever the engine answers. A move makes the calls of its
plan and no others: it arms what enters, then resets what leaves and nobody else wants, each in
index order. The counts do not depend on the answers, and of several failures the first is told.
-/

namespace TorrentFlow

/-! ### Calls on any engine -/

inductive DeadlineCall where
  | set (handle : Handle) (piece : Piece) (deadline : Duration) (alert : Bool)
  | reset (handle : Handle) (piece : Piece)
deriving DecidableEq

namespace DeadlineCall

variable {σ : Type} [Engine σ]

def ask : DeadlineCall → Call σ Unit
  | set h p deadline alert => Engine.setDeadline h p deadline alert
  | reset h p => Engine.resetDeadline h p

/-- Makes one call after another, whatever is answered. -/
def askAll : List DeadlineCall → σ → List (Except EngineError Unit) × σ
  | [], engine => ([], engine)
  | call :: rest, engine =>
    let (answer, engine) := call.ask engine
    let (answers, engine) := askAll rest engine
    (answer :: answers, engine)

/-- The first failure among some answers, as a window tells it. -/
def firstFailure (answers : List (Except EngineError Unit)) : Option PieceError :=
  answers.findSome? Window.Change.refusal

lemma askAll_cons (call : DeadlineCall) (rest : List DeadlineCall) (engine : σ) :
    askAll (call :: rest) engine = ((call.ask engine).1 :: (askAll rest (call.ask engine).2).1,
      (askAll rest (call.ask engine).2).2) := rfl

lemma askAll_append (calls calls' : List DeadlineCall) (engine : σ) :
    askAll (calls ++ calls') engine =
      ((askAll calls engine).1 ++ (askAll calls' (askAll calls engine).2).1,
        (askAll calls' (askAll calls engine).2).2) := by
  induction calls generalizing engine with
  | nil => rfl
  | cons call rest ih =>
    rw [List.cons_append, askAll_cons, ih, askAll_cons]
    rfl

lemma firstFailure_cons (answer : Except EngineError Unit)
    (answers : List (Except EngineError Unit)) :
    firstFailure (answer :: answers) = (Window.Change.refusal answer).or
    (firstFailure answers) := by
  unfold firstFailure
  rw [List.findSome?_cons]
  rcases Window.Change.refusal answer with _ | e <;> rfl

lemma firstFailure_append (answers answers' : List (Except EngineError Unit)) :
    firstFailure (answers ++ answers') = (firstFailure answers).or (firstFailure answers') :=
  List.findSome?_append

end DeadlineCall

/-- An engine behind somebody who writes down what it is asked for: every call about a deadline, and
how many calls of other kinds there were. -/
structure Recorder (σ : Type) where
  engine : σ
  calls : List DeadlineCall := []
  others : Nat := 0
deriving DecidableEq

namespace Recorder

variable {σ : Type} [Engine σ]

def through {α : Type} (call : Call σ α) : Call (Recorder σ) α := fun r =>
  let (answer, engine) := call r.engine
  (answer, { r with engine, others := r.others + 1 })

def noted (call : DeadlineCall) : Call (Recorder σ) Unit := fun r =>
  let (answer, engine) := call.ask r.engine
  (answer, { r with engine, calls := r.calls ++ [call] })

instance : Engine (Recorder σ) where
  watch := through Engine.watch
  unwatch := through Engine.unwatch
  rings n r := Engine.rings n r.engine
  hasAlerts := through Engine.hasAlerts
  takeAlerts := through Engine.takeAlerts
  applyMask mask r := { r with engine := Engine.applyMask mask r.engine, others := r.others + 1 }
  isTracked h := through (Engine.isTracked h)
  status h := through (Engine.status h)
  setDeadline h p deadline alert := noted (.set h p deadline alert)
  resetDeadline h p := noted (.reset h p)

lemma ask_eq (call : DeadlineCall) (r : Recorder σ) : call.ask r = noted call r := by
  cases call <;> rfl

/-- The recorder changes no answer, and has the calls written down in the order in which they were
made. -/
lemma askAll_eq (calls : List DeadlineCall) (r : Recorder σ) :
    DeadlineCall.askAll calls r = ((DeadlineCall.askAll calls r.engine).1,
      { r with engine := (DeadlineCall.askAll calls r.engine).2, calls := r.calls ++ calls }) := by
  induction calls generalizing r with
  | nil =>
    rw [List.append_nil]
    rfl
  | cons call rest ih =>
    rw [DeadlineCall.askAll_cons, ask_eq, ih, DeadlineCall.askAll_cons]
    simp only [noted, List.append_assoc, List.singleton_append]

end Recorder

namespace Window

/-! ### Counts without zeros -/

/-- The counts are in order, and a piece that nobody wants has no entry. -/
structure Tight (w : Window) : Prop where
  sorted : w.counts.Sorted
  positive : ∀ p, w.counts.get? p ≠ some 0

lemma Tight.get? {w : Window} (h : w.Tight) (p : Piece) :
    w.counts.get? p = if w.count p = 0 then none else some (w.count p) := by
  unfold count
  rcases hp : w.counts.get? p with _ | n
  · rfl
  · have hn : n ≠ 0 := fun e => h.positive p (e ▸ hp)
    rw [Option.getD_some, if_neg hn]

lemma tight_unwanted (handle : Handle) (deadline : Duration) :
    ({ handle, deadline } : Window).Tight where
  sorted := Table.sorted_empty
  positive _ hp := by cases hp

lemma Tight.raise {w : Window} (h : w.Tight) (p : Piece) : (w.raise p).Tight where
  sorted := h.sorted.set _ _
  positive q hq := by
    rw [Window.raise, Table.get?_set] at hq
    split_ifs at hq
    · simp at hq
    · exact h.positive q hq

lemma Tight.lower {w : Window} (h : w.Tight) (p : Piece) : (w.lower p).Tight := by
  unfold Window.lower
  rcases hp : w.counts.get? p with _ | n
  · exact h
  · by_cases hn : n ≤ 1
    · simp only [hn, if_true]
      refine ⟨h.sorted.erase p, fun q hq => ?_⟩
      rw [Table.get?_erase] at hq
      split_ifs at hq
      exact h.positive q hq
    · simp only [hn, if_false]
      refine ⟨h.sorted.set _ _, fun q hq => ?_⟩
      rw [Table.get?_set] at hq
      split_ifs at hq
      · have := Option.some.inj hq
        omega
      · exact h.positive q hq

lemma Tight.foldl {w : Window} (h : w.Tight) {f : Window → Piece → Window}
    (hf : ∀ w p, w.Tight → (f w p).Tight) (l : List Piece) : (l.foldl f w).Tight :=
  List.foldlRecOn (motive := Tight) l f h fun w hw p _ => hf w p hw

lemma Tight.eq {w w' : Window} (h : w.Tight) (h' : w'.Tight) (hh : w.handle = w'.handle)
    (hd : w.deadline = w'.deadline) (hc : ∀ p, w.count p = w'.count p) : w = w' := by
  have hcounts : w.counts = w'.counts :=
    Table.eq_of_get? h.sorted h'.sorted fun p => by rw [h.get?, h'.get?, hc]
  cases w
  cases w'
  cases hh
  cases hd
  cases hcounts
  rfl

@[simp] lemma deadline_lower (w : Window) (p : Piece) : (w.lower p).deadline = w.deadline := by
  unfold lower
  rcases w.counts.get? p with _ | n <;> rfl

/-! ### The plan of a move -/

/-- The call that arms a piece: it asks for the piece within the window's deadline, and for its
bytes. -/
def arming (w : Window) (p : Piece) : DeadlineCall := .set w.handle p w.deadline true

/-- The calls of a move. What enters is armed, also what is wanted already; of what leaves only that
is reset which nobody else wants. -/
def plan (w : Window) (old new : OrderedSet Piece) : List DeadlineCall :=
  (new.diff old).elements.map w.arming ++
    ((old.diff new).elements.filter fun p => decide (w.count p = 1)).map (.reset w.handle)

section AnyEngine

open DeadlineCall

variable {σ : Type} [Engine σ]

namespace Change

lemma claim_eq (c : Change σ) (p : Piece) : c.claim p =
    { window := c.window.raise p
      engine := ((c.window.arming p).ask c.engine).2
      failure := c.failure.or (refusal ((c.window.arming p).ask c.engine).1)
      notices := c.notices } := by
  unfold claim noteFailure
  simp only [arming, ask]
  rcases hask : Engine.setDeadline c.window.handle p c.window.deadline true c.engine
    with ⟨_ | _, e⟩
  · rfl
  · simp only [refusal, Option.or_none]

lemma foldl_claim (l : List Piece) (c : Change σ) : l.foldl claim c =
    { window := l.foldl raise c.window
      engine := (askAll (l.map c.window.arming) c.engine).2
      failure := c.failure.or (firstFailure (askAll (l.map c.window.arming) c.engine).1)
      notices := c.notices } := by
  induction l generalizing c with
  | nil =>
    show c = { c with failure := c.failure.or none }
    rw [Option.or_none]
  | cons p rest ih =>
    rw [List.foldl_cons, ih, claim_eq, List.map_cons, askAll_cons, firstFailure_cons,
      Option.or_assoc]
    rfl

/-- What becomes of a piece that is given up depends on how many wanted it. -/
lemma yieldUp_eq (c : Change σ) (h : c.window.Tight) (p : Piece) : c.yieldUp p =
    { window := c.window.lower p
      engine := if c.window.count p = 1 then ((DeadlineCall.reset c.window.handle p).ask c.engine).2
        else c.engine
      failure := if c.window.count p = 1 then
          c.failure.or (refusal ((DeadlineCall.reset c.window.handle p).ask c.engine).1)
        else c.failure
      notices :=
        if c.window.count p = 0 then c.notices ++ [.pieceNotWanted p] else c.notices } := by
  have hget := h.get? p
  unfold yieldUp
  rcases hn : c.window.count p with _ | _ | n <;> rw [hn] at hget <;> simp only [hget]
  · simp [lower, hget]
  · simp only [ask, noteFailure]
    rcases hask : (Engine.resetDeadline c.window.handle p c.engine) with ⟨_ | _, e⟩
    · rfl
    · simp [refusal]
  · simp

lemma foldl_yieldUp {l : List Piece} (hl : l.Nodup) (c : Change σ) (h : c.window.Tight) :
    l.foldl yieldUp c =
      { window := l.foldl lower c.window
        engine := (askAll ((l.filter fun p => decide (c.window.count p = 1)).map
          (.reset c.window.handle)) c.engine).2
        failure := c.failure.or (firstFailure (askAll ((l.filter fun p =>
          decide (c.window.count p = 1)).map (.reset c.window.handle)) c.engine).1)
        notices := c.notices ++
          (l.filter fun p => decide (c.window.count p = 0)).map .pieceNotWanted } := by
  induction l generalizing c with
  | nil =>
    show c = { c with failure := c.failure.or none, notices := c.notices ++ [] }
    rw [Option.or_none, List.append_nil]
  | cons p rest ih =>
    obtain ⟨hp, hrest⟩ := List.nodup_cons.mp hl
    -- giving up one piece leaves the counts of the others, so that the rest of the plan stands
    have hcount : ∀ n, (rest.filter fun q => decide ((c.window.lower p).count q = n)) =
        rest.filter fun q => decide (c.window.count q = n) := fun n =>
      List.filter_congr fun q hq => by
        have hne : q ≠ p := fun e => hp (e ▸ hq)
        rw [count_lower, if_neg hne, Nat.sub_zero]
    rw [List.foldl_cons, ih hrest _ (by rw [window_yieldUp]; exact h.lower p), yieldUp_eq c h]
    simp only [hcount, handle_lower, List.foldl_cons, List.filter_cons, decide_eq_true_eq]
    by_cases hone : c.window.count p = 1
    · simp only [hone, if_true, List.map_cons, askAll_cons, firstFailure_cons, Option.or_assoc,
        Nat.one_ne_zero, if_false]
    · by_cases hzero : c.window.count p = 0
      · simp only [hzero, if_true, Nat.zero_ne_one, if_false, List.map_cons, List.append_assoc,
          List.singleton_append]
      · simp only [hone, hzero, if_false]

end Change

variable {w : Window} {old new : OrderedSet Piece}

/-- **A move makes the calls of its plan**, and what it tells follows from their answers. -/
theorem delta_eq (h : w.Tight) (ho : old.Sorted) (hn : new.Sorted) (engine : σ) :
    w.delta old new engine =
      { window := (old.diff new).elements.foldl lower ((new.diff old).elements.foldl raise w)
        engine := (askAll (w.plan old new) engine).2
        failure := firstFailure (askAll (w.plan old new) engine).1
        notices := ((old.diff new).elements.filter fun p => decide (w.count p = 0)).map
          .pieceNotWanted } := by
  have hclaimed : ((new.diff old).elements.foldl raise w).Tight :=
    h.foldl (fun w p hw => hw.raise p) _
  have hhandle : ((new.diff old).elements.foldl raise w).handle = w.handle :=
    List.foldlRecOn (motive := fun v : Window => v.handle = w.handle) _ raise rfl
      fun v hv p _ => hv
  -- what leaves has not entered, and so is counted as before
  have hcount : ∀ n, ((old.diff new).elements.filter fun p =>
      decide (((new.diff old).elements.foldl raise w).count p = n)) =
        (old.diff new).elements.filter fun p => decide (w.count p = n) := fun n =>
    List.filter_congr fun p hp => by
      have hnot : p ∉ (new.diff old).elements := fun hmem =>
        (OrderedSet.mem_diff.mp hmem).2 (OrderedSet.mem_diff.mp hp).1
      rw [count_foldl_raise (hn.diff old).nodup, if_neg hnot, Nat.add_zero]
  unfold delta
  rw [Change.foldl_claim, Change.foldl_yieldUp (ho.diff new).nodup _ hclaimed]
  simp only [hcount, hhandle, plan, askAll_append, firstFailure_append, Option.none_or,
    List.nil_append]

lemma tight_delta (h : w.Tight) (engine : σ) : (w.delta old new engine).window.Tight := by
  rw [window_delta]
  exact (h.foldl (fun w p hw => hw.raise p) _).foldl (fun w p hw => hw.lower p) _

lemma deadline_delta (engine : σ) : (w.delta old new engine).window.deadline = w.deadline := by
  rw [window_delta]
  refine List.foldlRecOn (motive := fun v : Window => v.deadline = w.deadline) _ lower ?_
    fun v hv p _ => (deadline_lower v p).trans hv
  exact List.foldlRecOn (motive := fun v : Window => v.deadline = w.deadline) _ raise rfl
    fun v hv p _ => hv

/-- What one move does to the counts, the move back undoes if what it started from was wanted. -/
lemma delta_back (h : w.Tight) (ho : old.Sorted) (hn : new.Sorted)
    (hheld : ∀ p ∈ old, 0 < w.count p) (engine again : σ) :
    ((w.delta old new engine).window.delta new old again).window = w := by
  refine Tight.eq (tight_delta (tight_delta h engine) again) h ?_ ?_ fun p => ?_
  · rw [handle_delta, handle_delta]
  · rw [deadline_delta, deadline_delta]
  · rw [count_delta _ _ _ _ hn ho, count_delta _ _ _ _ ho hn]
    by_cases hp : p ∈ old <;> by_cases hp' : p ∈ new
    · simp [hp, hp']
    · have := hheld p hp
      simp only [hp, hp', not_true, not_false_iff, and_self, if_true, if_false]
      omega
    · simp [hp, hp']
    · simp [hp, hp']

lemma tight_discard (h : w.Tight) (pieces : OrderedSet Piece) : (w.discard pieces).Tight :=
  h.foldl (fun _ p hw => hw.lower p) _

/-- **A move is exact, whatever the engine answers**:

* the engine is asked for the calls of the plan, once each and in index order, and for nothing else;
* what is told is the first failure in that order, if there is one;
* the counts go up by one for what enters and down by one for what leaves and is counted, and no
  entry is left at zero; what leaves without being counted is told of;
* a reader that gives its pieces up without a move is counted out in the same way;
* the move back restores the window if its reader was counted for what it gave up. -/
theorem delta_exact (h : w.Tight) (ho : old.Sorted) (hn : new.Sorted) (engine : σ)
    {moved : Change (Recorder σ)} (hmoved : w.delta old new ({ engine } : Recorder σ) = moved) :
    moved.engine = { engine := (askAll (w.plan old new) engine).2, calls := w.plan old new } ∧
      (new.diff old).Sorted ∧ (old.diff new).Sorted ∧
      moved.failure = firstFailure (askAll (w.plan old new) engine).1 ∧
      (∀ p, moved.window.count p =
        if p ∈ new ∧ p ∉ old then w.count p + 1
        else if p ∈ old ∧ p ∉ new then w.count p - 1
        else w.count p) ∧
      moved.window.Tight ∧
      moved.notices = ((old.diff new).elements.filter fun p => decide (w.count p = 0)).map
        .pieceNotWanted ∧
      (∀ pieces : OrderedSet Piece, pieces.Sorted → (w.discard pieces).Tight ∧
        ∀ p, (w.discard pieces).count p = if p ∈ pieces then w.count p - 1 else w.count p) ∧
      ((∀ p ∈ old, 0 < w.count p) → ∀ again : Recorder σ,
        (moved.window.delta new old again).window = w) := by
  subst hmoved
  have heq := delta_eq h ho hn ({ engine } : Recorder σ)
  rw [Recorder.askAll_eq] at heq
  refine ⟨congrArg Change.engine heq, hn.diff old, ho.diff new, congrArg Change.failure heq,
    fun p => ?_, tight_delta h _, congrArg Change.notices heq,
    fun pieces hp => ⟨tight_discard h pieces,
    fun p => ?_⟩, fun hheld again => delta_back h ho hn hheld _ again⟩
  · rw [count_delta _ _ _ _ ho hn]
    by_cases hp : p ∈ old <;> by_cases hp' : p ∈ new <;> simp [hp, hp']
  · rw [discard, count_foldl_lower hp.nodup]
    simp only [← OrderedSet.mem_def]
    split_ifs <;> rfl

end AnyEngine

/-- A move of which the engine refuses a call, since the torrent has no piece 9: the rest of the
plan is asked for all the same. Piece 1 stays wanted, and piece 7 leaves without having been
counted. -/
theorem delta_exact_refused : ∃ (w : Window) (engine : Simulated) (old new : OrderedSet Piece)
    (moved : Change (Recorder Simulated)), w.Tight ∧ old.Sorted ∧ new.Sorted ∧
      w.delta old new ({ engine } : Recorder Simulated) = moved ∧
      moved.engine.calls = [.set w.handle ⟨2⟩ w.deadline true, .set w.handle ⟨9⟩ w.deadline true,
        .reset w.handle ⟨0⟩, .reset w.handle ⟨3⟩] ∧
      moved.failure = some (.engine (.invalidPiece ⟨9⟩)) ∧ moved.window.Tight ∧
      [0, 1, 2, 3, 7, 9].map (fun i => moved.window.count ⟨i⟩) = [0, 2, 1, 0, 0, 1] ∧
      moved.notices = [.pieceNotWanted ⟨7⟩] := by
  let w : Window := [⟨0⟩, ⟨1⟩, ⟨1⟩, ⟨3⟩].foldl raise { handle := ⟨0, 1⟩, deadline := ⟨5⟩ }
  let engine : Simulated :=
    { slots := [⟨1, some (.fresh "a" [[1], [2], [3], [4]] .downloading)⟩], mask := .storage }
  let old : OrderedSet Piece := .ofList [⟨0⟩, ⟨1⟩, ⟨3⟩, ⟨7⟩]
  let new : OrderedSet Piece := .ofList [⟨1⟩, ⟨2⟩, ⟨9⟩]
  have htight : w.Tight := (tight_unwanted _ _).foldl (fun w p hw => hw.raise p) _
  have ho : old.Sorted := OrderedSet.sorted_ofList _
  have hn : new.Sorted := OrderedSet.sorted_ofList _
  obtain ⟨hcalls, -, -, hfail, hcount, hmoved, hnotices, -, -⟩ :=
    delta_exact htight ho hn engine rfl
  refine ⟨w, engine, old, new, _, htight, ho, hn, rfl, (congrArg Recorder.calls hcalls).trans ?_,
    hfail.trans ?_, hmoved, ?_, hnotices.trans ?_⟩
  · decide
  · decide
  · simp only [List.map_cons, List.map_nil, hcount]
    decide
  · decide

end Window

end TorrentFlow
