import TorrentFlow.Proofs.Services.Outcome

/-!
A reader yields the pieces of its request, in the order of the request, whatever happens in between
and whoever else reads. The invariant is the cursor: as long as the reader goes on, it has yielded
as many pieces as the cursor says, and they are the first ones of the request.
-/

namespace TorrentFlow.Services

open Pipeline (readRequest)

/-- What a reader answers when it is asked, if it does not leave the caller waiting. -/
def Event.result? (id : Nat) : Event → Option (Polled (Except PieceError PieceData))
  | .polled j _ answer =>
    if j = id then
      match answer with
      | .pending => none
      | .item a => some (.item a)
      | .done => some .done
      | .overflow => some .overflow
    else none
  | _ => none

/-- The results of a reader, in the order in which it gave them. -/
def results (id : Nat) (trace : List Event) : List (Polled (Except PieceError PieceData)) :=
  trace.filterMap (Event.result? id)

def pieceOf : Polled (Except PieceError PieceData) → Option PieceData
  | .item (.ok d) => some d
  | _ => none

def yielded (id : Nat) (trace : List Event) : List PieceData := (results id trace).filterMap pieceOf

/-- Results as they ought to be: pieces of the request in order, with the torrent's own bytes, then
at most one error, then nothing more. -/
structure InOrder (added : Handle → List Payload → Prop) (h : Handle) (pieces : List Piece)
    (results : List (Polled (Except PieceError PieceData))) (items : List PieceData)
    (errors : List PieceError) (n : Nat) : Prop where
  shape : results = items.map (fun d => .item (.ok d)) ++ errors.map (fun e => .item (.error e)) ++
    List.replicate n .done
  order : items.map (·.piece) = pieces.take items.length
  bytes : ∀ d ∈ items, ∃ payloads i, added h payloads ∧ d.piece.position? = some i ∧
    payloads[i]? = some d.data
  single : errors.length ≤ 1
  complete : errors = [] → 0 < n → items.length = pieces.length

namespace InOrder

variable {added added' : Handle → List Payload → Prop} {h : Handle} {pieces : List Piece}
  {results : List (Polled (Except PieceError PieceData))} {items : List PieceData}
  {errors : List PieceError} {n : Nat}

lemma mono (ho : InOrder added h pieces results items errors n)
    (ha : ∀ payloads, added h payloads → added' h payloads) :
    InOrder added' h pieces results items errors n :=
  ⟨ho.shape, ho.order, fun d hd => by
    obtain ⟨payloads, i, hadd, hrest⟩ := ho.bytes d hd
    exact ⟨payloads, i, ha payloads hadd, hrest⟩, ho.single, ho.complete⟩

lemma length_le (ho : InOrder added h pieces results items errors n) :
    items.length ≤ pieces.length := by
  have hlen := congrArg List.length ho.order
  rw [List.length_map, List.length_take] at hlen
  omega

lemma yield (ho : InOrder added h pieces results items [] 0) {d : PieceData}
    (hp : pieces[items.length]? = some d.piece) (hd : ∃ payloads i, added h payloads ∧
      d.piece.position? = some i ∧ payloads[i]? = some d.data) :
    InOrder added h pieces (results ++ [.item (.ok d)]) (items ++ [d]) [] 0 where
  shape := by simp [ho.shape]
  order := by
    rw [List.map_append, ho.order, List.length_append, List.length_singleton, List.take_add_one, hp]
    rfl
  bytes d' hd' := by
    rcases List.mem_append.mp hd' with hd' | hd'
    · exact ho.bytes d' hd'
    · rw [List.mem_singleton.mp hd']
      exact hd
  single := Nat.zero_le 1
  complete _ hn := absurd hn (Nat.lt_irrefl 0)

lemma fail (ho : InOrder added h pieces results items [] 0) (e : PieceError) :
    InOrder added h pieces (results ++ [.item (.error e)]) items [e] 0 :=
  ⟨by simp [ho.shape], ho.order, ho.bytes, Nat.le_refl 1, fun he => by cases he⟩

lemma done (ho : InOrder added h pieces results items errors n)
    (hc : errors = [] → items.length = pieces.length) :
    InOrder added h pieces (results ++ [.done]) items errors (n + 1) := by
  refine ⟨?_, ho.order, ho.bytes, ho.single, fun he _ => hc he⟩
  rw [ho.shape, List.append_assoc, ← List.replicate_succ']

lemma filterMap_pieceOf (ho : InOrder added h pieces results items errors n) :
    results.filterMap pieceOf = items := by
  have hok : ∀ l : List PieceData,
      (l.map fun d => Polled.item (.ok d)).filterMap pieceOf = l := fun l => by
    induction l with
    | nil => rfl
    | cons d rest ih =>
      rw [List.map_cons, List.filterMap_cons, ih]
      rfl
  have herr : ∀ l : List PieceError,
      (l.map fun e => Polled.item (.error e)).filterMap pieceOf = [] := fun l => by
    induction l with
    | nil => rfl
    | cons e rest ih =>
      rw [List.map_cons, List.filterMap_cons, ih]
      rfl
  have hdone : (List.replicate n .done).filterMap pieceOf = [] :=
    List.filterMap_eq_nil_iff.mpr fun a ha => by rw [List.eq_of_mem_replicate ha]; rfl
  rw [ho.shape, List.filterMap_append, List.filterMap_append, hok, herr, hdone, List.append_nil,
    List.append_nil]

end InOrder

/-! ### The invariant -/

/-- What a reader has given so far, by the state that it is in. -/
structure Account (trace : List Event) (p : Pipeline Simulated) (id : Nat) (h : Handle)
    (pieces : List Piece) : Prop where
  scope : id < p.nextScope
  request : ∀ r, p.readers.get? id = some r → r.handle = h ∧ r.pieces = pieces
  going : ∀ r, p.readers.get? id = some r → r.finished = false →
    ∃ items, InOrder (Added trace) h pieces (results id trace) items [] 0 ∧ items.length = r.cursor
  gone : ∀ r, p.readers.get? id = some r → r.finished = true →
    ∃ items errors n, InOrder (Added trace) h pieces (results id trace) items errors n ∧
      (errors = [] → items.length = pieces.length)
  all : ∃ items errors n, InOrder (Added trace) h pieces (results id trace) items errors n

lemma results_append (id : Nat) (trace : List Event) (event : Event) :
    results id (trace ++ [event]) = results id trace ++ (event.result? id).toList := by
  simp only [results, List.filterMap_append]
  rcases h : event.result? id with _ | a <;> simp [h]

lemma result?_of_ne {id : Nat} {event : Event} (h : event.reader? ≠ some id) :
    event.result? id = none := by
  cases event with
  | polled j advance answer => exact if_neg fun e => h (congrArg some e)
  | _ => rfl

lemma Account.still {trace : List Event} {p q : Pipeline Simulated} {id : Nat} {h : Handle}
    {pieces : List Piece} (ha : Account trace p id h pieces) {event : Event}
    (hn : p.nextScope ≤ q.nextScope) (hr : event.result? id = none)
    (hget : ∀ r, q.readers.get? id = some r → p.readers.get? id = some r) :
    Account (trace ++ [event]) q id h pieces := by
  have hres : results id (trace ++ [event]) = results id trace := by
    rw [results_append, hr]
    simp
  have hmono : ∀ payloads, Added trace h payloads → Added (trace ++ [event]) h payloads :=
    fun _ hadd => hadd.append _
  refine ⟨Nat.lt_of_lt_of_le ha.scope hn, fun r h => ha.request r (hget r h), fun r h hf => ?_,
    fun r h hf => ?_, ?_⟩
  · obtain ⟨items, ho, hlen⟩ := ha.going r (hget r h) hf
    exact ⟨items, hres ▸ ho.mono hmono, hlen⟩
  · obtain ⟨items, errors, n, ho, hc⟩ := ha.gone r (hget r h) hf
    exact ⟨items, errors, n, hres ▸ ho.mono hmono, hc⟩
  · obtain ⟨items, errors, n, ho⟩ := ha.all
    exact ⟨items, errors, n, hres ▸ ho.mono hmono⟩

/-- A reader was asked. -/
lemma Account.polled {settings : Settings} {trace : List Event}
    {p q : Pipeline Simulated} {id : Nat} {h : Handle} {pieces : List Piece}
    (ha : Account trace p id h pieces) {advance : Option Nat}
    {answer : Polled (Except PieceError PieceData)} {r r' : Reader} (hn : p.nextScope ≤ q.nextScope)
    (hr : p.readers.get? id = some r) (hr' : q.readers.get? id = some r') (hk : r.Kin r')
    (ho : Outcome (Added trace) (Failed trace) r r' answer)
    (hahead : r.ahead = max settings.readWindow 1)
    (hlen : pieces.length + settings.readWindow < Numeral.wordSize) :
    Account (trace ++ [.polled id advance answer]) q id h pieces := by
  obtain ⟨hhandle, hpieces⟩ := ha.request r hr
  have hmono : ∀ payloads, Added trace h payloads →
      Added (trace ++ [.polled id advance answer]) h payloads := fun _ hadd => hadd.append _
  have hres : ∀ {a}, Event.result? id (.polled id advance answer) = some a →
      results id (trace ++ [.polled id advance answer]) = results id trace ++ [a] := fun {a} h => by
    rw [results_append, h]
    rfl
  have honly : ∀ r₁, q.readers.get? id = some r₁ → r₁ = r' := fun r₁ h₁ => by
    rw [hr'] at h₁
    exact (Option.some.inj h₁).symm
  have hrequest : ∀ r₁, q.readers.get? id = some r₁ → r₁.handle = h ∧ r₁.pieces = pieces :=
    fun r₁ h₁ => by rw [honly r₁ h₁, hk.handle, hk.pieces]; exact ⟨hhandle, hpieces⟩
  -- once it has ended, what it gave is all there is
  have hend : ∀ items errors n, r'.finished = true →
      InOrder (Added trace) h pieces (results id (trace ++ [.polled id advance answer]))
        items errors n →
      (errors = [] → items.length = pieces.length) →
      Account (trace ++ [.polled id advance answer]) q id h pieces :=
    fun items errors n hf ho hc => ⟨Nat.lt_of_lt_of_le ha.scope hn, hrequest,
      fun r₁ h₁ hf₁ => absurd (honly r₁ h₁ ▸ hf₁) (by simp [hf]),
      fun r₁ _ _ => ⟨items, errors, n, ho.mono hmono, hc⟩, ⟨items, errors, n, ho.mono hmono⟩⟩
  have hgoing : ∀ items, r'.finished = false → items.length = r'.cursor →
      InOrder (Added trace) h pieces (results id (trace ++ [.polled id advance answer]))
      items [] 0 →
      Account (trace ++ [.polled id advance answer]) q id h pieces :=
    fun items hf hc ho => ⟨Nat.lt_of_lt_of_le ha.scope hn, hrequest,
      fun r₁ h₁ _ => ⟨items, ho.mono hmono, by rw [honly r₁ h₁, hc]⟩,
      fun r₁ h₁ hf₁ => absurd (honly r₁ h₁ ▸ hf₁) (by simp [hf]),
      ⟨items, [], 0, ho.mono hmono⟩⟩
  cases ho with
  | past hf heq =>
    obtain ⟨items, errors, n, ho, hc⟩ := ha.gone r hr hf
    refine hend items errors (n + 1) (heq ▸ hf) ?_ hc
    rw [hres (a := .done) (if_pos rfl)]
    exact ho.done hc
  | ended hf hlen' hf' =>
    obtain ⟨items, ho, hcursor⟩ := ha.going r hr hf
    have hle := ho.length_le
    rw [hpieces] at hlen'
    have hall : items.length = pieces.length := by omega
    refine hend items [] 1 hf' ?_ fun _ => hall
    rw [hres (a := .done) (if_pos rfl)]
    exact ho.done fun _ => hall
  | overflow hf hlt hu =>
    -- the request and the window are not that long
    unfold Reader.upcoming? at hu
    rw [hpieces] at hlt
    split_ifs at hu with hword
    omega
  | @failed e hf hf' =>
    obtain ⟨items, ho, -⟩ := ha.going r hr hf
    refine hend items [e] 0 hf' ?_ fun he => by cases he
    rw [hres (a := .item (.error e)) (if_pos rfl)]
    exact ho.fail e
  | @yielded d hf hu hn' hf' hcursor hp hd =>
    obtain ⟨items, ho, hlen'⟩ := ha.going r hr hf
    refine hgoing (items ++ [d]) hf' ?_ ?_
    · rw [List.length_append, List.length_singleton, hlen', hcursor]
    · rw [hres (a := .item (.ok d)) (if_pos rfl)]
      rw [hpieces, ← hlen'] at hp
      rw [hhandle] at hd
      exact ho.yield hp hd
  | waits hf hlt hu hn' hf' hcursor hs =>
    obtain ⟨items, ho, hlen'⟩ := ha.going r hr hf
    refine hgoing items hf' (by rw [hlen', hcursor]) ?_
    have hsame : results id (trace ++ [.polled id advance .pending]) = results id trace := by
      rw [results_append]
      simp [Event.result?]
    rw [hsame]
    exact ho

theorem run_account {settings : Settings} {trace : List Event} {p : Pipeline Simulated}
    (h : Run settings trace p) : ∀ id g pieces, Event.began id g pieces ∈ trace →
      pieces.length + settings.readWindow < Numeral.wordSize → Account trace p id g pieces := by
  induction h with
  | start he _ =>
    intro id g pieces hb
    have hnone := prepared_readerless he _ hb
    cases hnone
  | @snoc trace p q event hrun hstep ih =>
    intro id g pieces hb hlen
    obtain ⟨hsound, hstaffed⟩ := run_sound_staffed hrun
    have hn := (settings_step hsound.inv hstaffed hstep).2
    have hfortune := (fortune_step hsound hstaffed (fun r hr => run_stocked hrun id r hr) hstep).1
    rcases List.mem_append.mp hb with hb | hb
    · have ha := ih id g pieces hb hlen
      cases hfortune with
      | apart he hget => exact ha.still hn (result?_of_ne he) fun r hr => hget ▸ hr
      | began hid =>
        have := ha.scope
        omega
      | polled hr hr' hk ho =>
        refine ha.polled hn hr hr' hk ho ?_ hlen
        rw [hstaffed.ahead id _ hr, run_settings hrun]
      | cancelled hget => exact ha.still hn rfl fun r hr => hget ▸ hr
      | dropped hnone =>
        refine ha.still hn rfl fun r hr => ?_
        rw [hnone] at hr
        cases hr
    · -- the reader was made just now, and has said nothing yet
      obtain rfl := List.mem_singleton.mp hb
      cases hfortune with
      | apart he => exact absurd rfl he
      | began hid hlt hget =>
        have hempty : results id (trace ++ [.began id g pieces]) = [] := by
          have hnone : results id trace = [] := by
            refine List.filterMap_eq_nil_iff.mpr fun event hmem => ?_
            cases event with
            | polled j advance answer =>
              refine if_neg fun e => run_unasked hrun id (Nat.le_of_eq hid.symm) advance answer ?_
              exact e ▸ hmem
            | _ => rfl
          rw [results_append, hnone]
          rfl
        have hnothing : InOrder (Added (trace ++ [.began id g pieces])) g pieces
            (results id (trace ++ [.began id g pieces])) [] [] 0 :=
          ⟨hempty, rfl, by simp, Nat.zero_le 1, fun _ hn => absurd hn (Nat.lt_irrefl 0)⟩
        refine ⟨hlt, fun r hr => ?_, fun r hr _ => ?_, fun r hr hf => ?_, [], [], 0, hnothing⟩
        · rw [hget, Option.some.injEq] at hr
          exact hr ▸ ⟨rfl, rfl⟩
        · rw [hget, Option.some.injEq] at hr
          exact ⟨[], hnothing, hr ▸ rfl⟩
        · rw [hget, Option.some.injEq] at hr
          rw [← hr] at hf
          cases hf

/-! ### Every reader, every run -/

/-- The reader came to the end of its request without an error. -/
def Finished (id : Nat) (trace : List Event) : Prop :=
  .done ∈ results id trace ∧ ∀ e, .item (.error e) ∉ results id trace

lemma InOrder.finished {added : Handle → List Payload → Prop} {h : Handle} {pieces : List Piece}
    {results : List (Polled (Except PieceError PieceData))} {items : List PieceData}
    {errors : List PieceError} {n : Nat} (ho : InOrder added h pieces results items errors n)
    (hd : .done ∈ results) (he : ∀ e, .item (.error e) ∉ results) :
    items.map (·.piece) = pieces := by
  have herrors : errors = [] := by
    rcases errors with _ | ⟨e, rest⟩
    · rfl
    · exact absurd (by rw [ho.shape]; simp) (he e)
  have hn : 0 < n := by
    rw [ho.shape, herrors] at hd
    rcases n with _ | n
    · simp at hd
    · omega
  rw [ho.order, ho.complete herrors hn, List.take_length]

/-- Items are the same if their pieces are, and the bytes of each piece. -/
lemma eq_of_pieces {items items' : List PieceData}
    (hp : items.map (·.piece) = items'.map (·.piece))
    (hd : ∀ d ∈ items, ∀ d' ∈ items', d.piece = d'.piece → d.data = d'.data) : items = items' := by
  induction items generalizing items' with
  | nil => simpa using hp.symm
  | cons d rest ih =>
    rcases items' with _ | ⟨d', rest'⟩
    · cases hp
    · obtain ⟨hpiece, hrest⟩ := List.cons.inj hp
      have hdata := hd d (by simp) d' (by simp) hpiece
      have heq : d = d' := by
        obtain ⟨q, data⟩ := d
        obtain ⟨q', data'⟩ := d'
        simp_all
      rw [heq, ih hrest fun d hd₁ d' hd₂ => hd d (by simp [hd₁]) d' (by simp [hd₂])]

/-- **Reads are in order**: whatever happens in between, what a reader gives are the first pieces of
its request one by one, each with the bytes that the torrent of exactly this handle was added with,
then at most one error, then nothing; and without an error nothing comes only after the whole
request. Two readers of the same request that come to its end without an error, in whatever runs,
yield the same. -/
theorem reads_in_order {settings : Settings} {trace : List Event}
    {p : Pipeline Simulated} {id : Nat} {h : Handle} {pieces : List Piece}
    (hrun : Run settings trace p) (hb : Event.began id h pieces ∈ trace)
    (hlen : pieces.length + settings.readWindow < Numeral.wordSize) :
    (∃ errors n, InOrder (Added trace) h pieces (results id trace) (yielded id trace) errors n) ∧
      ∀ {settings' : Settings} {trace' : List Event} {p' : Pipeline Simulated} {id' : Nat},
        Run settings' trace' p' → Event.began id' h pieces ∈ trace' →
        pieces.length + settings'.readWindow < Numeral.wordSize →
        (∀ payloads payloads', Added trace h payloads → Added trace' h payloads' →
          payloads = payloads') →
        Finished id trace → Finished id' trace' → yielded id trace = yielded id' trace' := by
  have hall : ∀ {settings : Settings} {trace : List Event} {p : Pipeline Simulated} {id : Nat},
      Run settings trace p → Event.began id h pieces ∈ trace →
      pieces.length + settings.readWindow < Numeral.wordSize →
      ∃ errors n, InOrder (Added trace) h pieces (results id trace) (yielded id trace) errors n :=
    fun {settings trace p id} hrun hb hlen => by
      obtain ⟨items, errors, n, ho⟩ := (run_account hrun id h pieces hb hlen).all
      have hitems : yielded id trace = items := ho.filterMap_pieceOf
      exact ⟨errors, n, hitems ▸ ho⟩
  obtain ⟨errors, n, ho⟩ := hall hrun hb hlen
  refine ⟨⟨errors, n, ho⟩, fun hrun' hb' hlen' hsame hf hf' => ?_⟩
  obtain ⟨errors', n', ho'⟩ := hall hrun' hb' hlen'
  refine eq_of_pieces ((ho.finished hf.1 hf.2).trans (ho'.finished hf'.1 hf'.2).symm) ?_
  intro d hd d' hd' hpiece
  obtain ⟨payloads, i, hadd, hi, hdata⟩ := ho.bytes d hd
  obtain ⟨payloads', i', hadd', hi', hdata'⟩ := ho'.bytes d' hd'
  obtain rfl := hsame payloads payloads' hadd hadd'
  rw [hpiece, hi', Option.some.injEq] at hi
  rw [← hi, hdata', Option.some.injEq] at hdata
  exact hdata.symm

/-- One piece that is read twice, from the engine to the reader. -/
theorem reads_in_order_twice :
    ∃ (trace : List Event) (p : Pipeline Simulated) (pieces : List Piece),
    Run {} trace p ∧ Event.began 0 ⟨0, 1⟩ pieces ∈ trace ∧
      pieces.length + ({} : Settings).readWindow < Numeral.wordSize ∧
      yielded 0 trace = [⟨⟨0⟩, [7]⟩, ⟨⟨0⟩, [7]⟩] ∧
      ∃ errors n, InOrder (Added trace) ⟨0, 1⟩ pieces (results 0 trace)
      (yielded 0 trace) errors n := by
  let start := (Pipeline.start {} ({} : Simulated)).toOption.getD (.assemble {} {})
  let added : EngineCall := .add "film" [[7]] .downloading
  let fed : EngineCall := .feed ⟨0, 1⟩ ⟨0⟩
  let p₁ : Pipeline Simulated := { start with engine := added.apply start.engine }
  let p₂ : Pipeline Simulated := { p₁ with engine := fed.apply p₁.engine }
  let p₃ := (p₂.read ⟨0, 1⟩ [⟨0⟩, ⟨0⟩]).2
  let p₄ := (p₃.pollReader 0).2
  let p₅ := (p₄.pumpStep 0).getD p₄
  let p₆ := (p₅.pumpStep 0).getD p₅
  let p₇ := (p₆.pumpStep 0).getD p₆
  let p₈ := (p₇.pollReader 0).2
  let p₉ := (p₈.pollReader 0).2
  have hstart : Run {} [] start := run_start {} (by decide +kernel)
  have hread : Run {} ([] ++ [.ofCall start.engine added] ++ [.ofCall p₁.engine fed] ++
      [.began p₂.nextScope ⟨0, 1⟩ [⟨0⟩, ⟨0⟩]]) p₃ :=
    ((hstart.snoc (step_call start rfl)).snoc (step_call p₁ rfl)).snoc (.read p₂ _ _)
  have hasked : Step p₃ (.polled 0 (p₃.advancing? 0) (p₃.pollReader 0).1) p₄ :=
    step_next p₃ 0 (by decide +kernel)
  have hpumped := (((hread.snoc hasked).snoc (step_pump p₄ (by decide +kernel))).snoc
    (step_pump p₅ (by decide +kernel))).snoc (step_pump p₆ (by decide +kernel))
  have hrun := ((hpumped.snoc (step_next p₇ 0 (by decide +kernel))).snoc
    (step_next p₈ 0 (by decide +kernel))).snoc (step_next p₉ 0 (by decide +kernel))
  have hid : p₂.nextScope = 0 := by decide +kernel
  rw [hid] at hrun
  refine ⟨_, _, [⟨0⟩, ⟨0⟩], hrun, ?_, by decide, by decide +kernel, ?_⟩
  · simp
  · exact (reads_in_order hrun (by simp) (by decide)).1

end TorrentFlow.Services
