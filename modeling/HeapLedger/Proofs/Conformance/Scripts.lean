import HeapLedger.Proofs.Conformance.Checks

/-!
# `HeapLedger/Proofs/Conformance/Scripts.lean` — what the checks ask for

What a check asks a backend for does not depend on what it thinks of the answers: it is the check's
script, followed until something is found wrong. A script is a list of lines, and a line is a request,
or what is asked about the block in hand, with the heap in which that is asked. `played` follows a
script over a backend, whatever the backend answers, and is the list of all requests that come of it.

Of no backend anything is presupposed here. The requests that a check makes are the first of its
script, and all of them if it passes (`Plays`). In between, the requests so far and what the script
holds from there on always make up the same list (`Ahead`).
-/

set_option autoImplicit false

namespace HeapLedger

variable {β α : Type}

/-- The backend's operation behind any request, with the block that it brings, if it can. -/
def Request.make (b : Backend β) : Request → HeapOp β (Option Nat)
  | .free p => (fun _ => none) <$> b.free p
  | .freeSized p n => (fun _ => none) <$> b.freeSized p n
  | .setBackgroundThread enable => (fun _ => none) <$> b.setBackgroundThread enable
  | .purge => (fun _ => none) <$> b.purge
  | request => request.ask b

/-- The blocks in hand after a request that was answered, the one that came last at the end. -/
def Request.hand (held : List Nat) : Request → Option Nat → List Nat
  | .realloc p _, some q => held.erase p ++ [q]
  | .realloc _ _, none => held
  | .free p, _ | .freeSized p _, _ => held.erase p
  | _, brought => held ++ brought.toList

namespace Conformance

/-- A line of a script. -/
inductive Line (β : Type) where
  /-- This is asked. -/
  | ask (request : Request)
  /-- Something is asked about the block that has been in hand longest, and in a heap that may have
  been written to. Without such a block the line is passed over. -/
  | about (next : Nat → Heap β → Option (Sighting β))

/-- What a line asks for with some blocks in hand, and in a heap as the last request left it. -/
def Line.next : Line β → List Nat → Heap β → Option (Sighting β)
  | ask request, _, h => some ⟨h, request⟩
  | about next, held, h => held.head?.bind fun p => next p h

/-- The block is given back. -/
def Line.giveBack : Line β :=
  about fun p h => some ⟨h, .free p⟩

/-- All requests that come of a script, each with the heap that it finds. -/
def played (b : Backend β) : List (Line β) → List Nat → Heap β → List (Sighting β)
  | [], _, _ => []
  | line :: script, held, h =>
    match line.next held h with
    | none => played b script held h
    | some s =>
      s :: match s.request.make b s.heap with
        | .ok brought h' => played b script (s.request.hand held brought) h'
        | .error _ _ => []

/-- The requests that a check makes are the first of its script, and all of them if it passes. -/
structure Plays (b : Backend β) (script : List (Line β)) (check : Check β α)
    (seen : List (Sighting β)) (h : Heap β) : Prop where
  asked : seen <+: played b script [] h
  finished : verdict check h = none → seen = played b script [] h

/-! ## Following a script -/

/-- With what has been seen already and what the script holds from here on, it is `all`. -/
def Ahead (b : Backend β) (all : List (Sighting β)) (script : List (Line β)) (held : List Nat)
    (h : Heap β) (w : Heap (Watched β)) : Prop :=
  w.state.seen.reverse ++ played b script held h = all

/-- What has been seen are the first of `all`. -/
def Within (all : List (Sighting β)) (w : Heap (Watched β)) : Prop :=
  w.state.seen.reverse <+: all

section Following

variable {b : Backend β} {all : List (Sighting β)} {line : Line β} {script : List (Line β)}
  {held : List Nat} {h : Heap β} {w : Heap (Watched β)} {request : Request}

theorem Ahead.within (hw : Ahead b all script held h w) : Within all w :=
  ⟨_, hw⟩

/-- What is written in between is nothing that is asked. -/
theorem Ahead.wrote (hw : Ahead b all script held h w) (m : Memory) :
    Ahead b all script held h ⟨m, w.state⟩ :=
  hw

theorem ahead_watched (script : List (Line β)) (h : Heap β) :
    Ahead b (played b script [] h) script [] h h.watched :=
  rfl

/-- Where there is nothing to ask, the script goes on. -/
theorem Ahead.pass (hw : Ahead b all (line :: script) held h w) (hline : line.next held h = none) :
    Ahead b all script held h w := by
  unfold Ahead played at hw
  rwa [hline] at hw

/-- The next request of the script. -/
theorem Ahead.asks {op : HeapOp β α} (brought : α → Option Nat)
    (hw : Ahead b all (line :: script) held h w)
    (hline : line.next held h = some ⟨w.unwatched, request⟩)
    (hmake : request.make b = brought <$> op) :
    Ends (call (op.watch request)) w
      (fun a w' => Ahead b all script (request.hand held (brought a)) w'.unwatched w')
      fun _ => Within all := by
  unfold Ahead played at hw
  rw [hline] at hw
  apply (watched_ends request op w).imp
  · rintro a w' ⟨hseen, hrun⟩
    have hanswer : request.make b w.unwatched = .ok (brought a) w'.unwatched := by
      rw [hmake]
      exact run_map_ok brought hrun
    simp only [hanswer] at hw
    rw [Ahead, hseen, List.reverse_cons, List.append_assoc]
    exact hw
  · rintro e w' ⟨hseen, -⟩
    rw [Within, hseen, List.reverse_cons, ← hw, List.prefix_append_right_inj]
    exact ⟨_, rfl⟩

/-- The next request of the script is for memory, which must come. -/
theorem Ahead.takes {refused : Violation} (hw : Ahead b all (line :: script) held h w)
    (request : Request) (hline : line.next held h = some ⟨w.unwatched, request⟩)
    (hmake : request.make b = request.ask b) :
    Ends (expect refused ((request.ask b).watch request)) w
      (fun q w' => Ahead b all script (request.hand held (some q)) w'.unwatched w')
      fun _ => Within all := by
  rw [ends_expect]
  apply (hw.asks id hline (by rw [hmake, id_map])).mono
  intro r w' hw'
  cases r with
  | none => exact hw'.within
  | some q => exact hw'

/-- The next request of the script exchanges the block in hand for another. -/
theorem Ahead.resizes {refused : Violation} {p n : Nat}
    (hw : Ahead b all (line :: script) [p] h w)
    (hline : line.next [p] h = some ⟨w.unwatched, .realloc p n⟩) :
    Ends (expect refused (b.watched.realloc p n)) w
      (fun q w' => Ahead b all script [q] w'.unwatched w') fun _ => Within all := by
  refine (hw.takes (.realloc p n) hline rfl).mono fun q w' hw' => ?_
  rwa [Request.hand, List.erase_cons_head] at hw'

/-- The next request of the script gives back the block that has been in hand longest. -/
theorem Ahead.gives {op : HeapOp β Unit} {p : Nat}
    (hw : Ahead b all (line :: script) (p :: held) h w)
    (hline : line.next (p :: held) h = some ⟨w.unwatched, request⟩)
    (hmake : request.make b = (fun _ => none) <$> op)
    (hhand : request.hand (p :: held) none = held) :
    Ends (call (op.watch request)) w
      (fun _ w' => Ahead b all script held w'.unwatched w') fun _ => Within all := by
  have hasks := hw.asks (fun _ => none) hline hmake
  rwa [hhand] at hasks

theorem Ahead.givesBack {p : Nat} (hw : Ahead b all (.giveBack :: script) (p :: held) w.unwatched w) :
    Ends (call (b.watched.free p)) w
      (fun _ w' => Ahead b all script held w'.unwatched w') fun _ => Within all :=
  hw.gives rfl rfl (List.erase_cons_head _ _)

/-- A loop goes through its script round by round, with nothing in hand in between. -/
theorem Ahead.rounds {γ : Type} {f : γ → Check (Watched β) PUnit} {round : γ → List (Line β)}
    (hround : ∀ x script w, Ahead b all (round x ++ script) [] w.unwatched w →
      Ends (f x) w (fun _ w' => Ahead b all script [] w'.unwatched w') fun _ => Within all) :
    ∀ (xs : List γ) w, Ahead b all (xs.flatMap round) [] w.unwatched w →
      Ends (xs.forM f) w (fun _ w' => Ahead b all [] [] w'.unwatched w') fun _ => Within all :=
  ends_forM_rest fun x _ w hw => hround x _ w hw

/-- A check that follows a script to its end, or until something is found wrong. -/
theorem plays_of_ends {check' : Check (Watched β) α} {check : Check β α}
    (hfollows : Follows Heap.unwatched check' check)
    (hends : Ends check' h.watched
      (fun _ w => Ahead b (played b script [] h) [] [] w.unwatched w)
      fun _ => Within (played b script [] h)) :
    Plays b script check (sightings check' h) h := by
  rcases ended hfollows hends with ⟨_, w, hrun, hseen, hw⟩ | ⟨e, w, hrun, hseen, hw⟩
  · have hall : w.state.seen.reverse = played b script [] h := by
      rw [← List.append_nil w.state.seen.reverse]
      exact hw
    rw [hseen, hall]
    exact ⟨List.prefix_refl _, fun _ => rfl⟩
  · refine ⟨hseen ▸ hw, fun hpassed => ?_⟩
    rw [verdict_of_error hrun] at hpassed
    cases hpassed

end Following

/-! ## The scripts of the checks -/

section Zeroing

/-- Zeroed memory is asked for and given back, size by size. -/
def zeroingScript : List (Line β) :=
  [1, 8, 24, 1000, 4096, 100000].flatMap fun n => [.ask (.allocZeroed n), .giveBack]

theorem zeroedAlloc_plays (b : Backend β) (h : Heap β) :
    Plays b zeroingScript (zeroedAlloc b) (sightings (zeroedAlloc b.watched) h) h := by
  apply plays_of_ends (follows_zeroedAlloc b)
  refine Ahead.rounds (fun n script w hw => ?_) zeroedSizes h.watched (ahead_watched _ h)
  rw [ends_bind]
  apply (Ahead.takes hw (.allocZeroed n) rfl rfl).mono
  intro q w₁ hw₁
  unfold memory
  rw [ends_bind, ends_bind, ends_get, ends_pure]
  split
  · exact hw₁.givesBack
  · exact ends_throw.2 hw₁.within

end Zeroing

section Sizing

/-- The block is overwritten as far as it is said to go, and given back as that long. -/
def Line.giveBackFilled (b : SizedBackend β) : Line β :=
  about fun p h => (b.blockSize p h).toOption.map fun usable =>
    ⟨⟨h.memory.fill p usable 0xcc, h.state⟩, .freeSized p usable⟩

/-- A block is asked for, overwritten and given back, size by size. -/
def sizingScript (b : SizedBackend β) : List (Line β) :=
  [1, 2, 3, 7, 8, 9, 15, 16, 17, 100, 1000, 4095, 4096, 4097, 100000].flatMap fun n =>
    [.ask (.alloc n), .giveBackFilled b]

theorem sizeOverAlloc_plays (b : SizedBackend β) (h : Heap β) :
    Plays b.toBackend (sizingScript b) (sizeOverAlloc b) (sightings (sizeOverAlloc b.watched) h)
      h := by
  apply plays_of_ends (follows_sizeOverAlloc b)
  refine Ahead.rounds (fun n script w hw => ?_) reportedSizes h.watched (ahead_watched _ h)
  rw [ends_bind]
  apply (Ahead.takes hw (.alloc n) rfl rfl).mono
  intro q w₁ hw₁
  rw [ends_bind, ends_call]
  apply (query_ends (b.watched.blockSize q) w₁).imp
  · rintro usable w₂ ⟨rfl, hsize⟩
    split
    · exact ends_throw.2 hw₁.within
    · rw [ends_bind, ends_call, ends_mapMemory]
      refine (hw₁.wrote _).gives ?_ rfl (List.erase_cons_head _ _)
      have hsaid : b.blockSize q w₂.unwatched = .ok usable := hsize
      show Option.map _ (b.blockSize q w₂.unwatched).toOption = _
      rw [hsaid]
      rfl
  · rintro e w₂ rfl
    exact hw₁.within

end Sizing

section Resizing

/-- A block of 16 bytes is asked for, and its bytes are written. It is resized to 100000 bytes and
then to four, and given back. -/
def resizingScript : List (Line β) :=
  [.ask (.alloc 16),
    .about fun p h => some ⟨⟨h.memory.overwrite p 16 UInt8.ofNat, h.state⟩, .realloc p 100000⟩,
    .about fun p h => some ⟨h, .realloc p 4⟩,
    .giveBack]

theorem reallocPreserves_plays (b : Backend β) (h : Heap β) :
    Plays b resizingScript (reallocPreserves b) (sightings (reallocPreserves b.watched) h) h := by
  apply plays_of_ends (follows_reallocPreserves b)
  unfold reallocPreserves
  rw [ends_bind]
  apply ((ahead_watched resizingScript h).takes (.alloc 16) rfl rfl).mono
  intro p w hw
  rw [ends_bind, ends_call, ends_mapMemory, ends_bind]
  apply ((hw.wrote _).resizes rfl).mono
  intro p₁ w₁ hw₁
  rw [ends_bind]
  apply (kept_ends p₁ 16 w₁).imp
  · rintro _ _ ⟨rfl, -⟩
    rw [ends_bind]
    apply (hw₁.resizes rfl).mono
    intro p₂ w₂ hw₂
    rw [ends_bind]
    apply (kept_ends p₂ 4 w₂).imp
    · rintro _ _ ⟨rfl, -⟩
      exact hw₂.givesBack
    · rintro _ _ ⟨rfl, -⟩
      exact hw₂.within
  · rintro _ _ ⟨rfl, -⟩
    exact hw₁.within

end Resizing

section Absurd

/-- Absurd sizes are asked for, and what comes is given back. -/
def absurdScript : List (Line β) :=
  [2 ^ 64 - 1, 2 ^ 64 - 2, 2 ^ 63 - 1, 2 ^ 63 - 2].flatMap fun n => [.ask (.alloc n), .giveBack]

theorem edgeCaseSizes_plays (b : Backend β) (h : Heap β) :
    Plays b absurdScript (edgeCaseSizes b) (sightings (edgeCaseSizes b.watched) h) h := by
  apply plays_of_ends (follows_edgeCaseSizes b)
  refine Ahead.rounds (fun n script w hw => ?_) absurdSizes h.watched (ahead_watched _ h)
  rw [ends_bind]
  apply (Ahead.asks id hw rfl (id_map _).symm).mono
  intro r w₁ hw₁
  cases r with
  | none => exact ends_pure.2 (hw₁.pass rfl)
  | some p => exact hw₁.givesBack

end Absurd

section Alignment

variable {b : Backend β} {all : List (Sighting β)} {script : List (Line β)}

/-- Sixteen blocks of each size are asked for, and then all are given back. -/
def alignmentScript (maxAlign : Nat) : List (Line β) :=
  ([maxAlign, maxAlign * 2, 100, 4096, 65536].flatMap fun n =>
    List.replicate 16 (.ask (.alloc n))) ++ List.replicate 80 .giveBack

/-- One more block is in hand. -/
theorem alignedBlock_asks {ptrs : List Nat} {n : Nat} {w : Heap (Watched β)}
    (hw : Ahead b all (.ask (.alloc n) :: script) ptrs w.unwatched w) :
    Ends (alignedBlock b.watched n) w
      (fun q w' => Ahead b all script (ptrs ++ [q]) w'.unwatched w') fun _ => Within all := by
  unfold alignedBlock
  rw [ends_bind]
  apply (hw.takes (.alloc n) rfl rfl).mono
  intro q w₁ hw₁
  split
  · exact ends_throw.2 hw₁.within
  · exact ends_pure.2 hw₁

theorem alignedBlocks_ask (sizes : List Nat) :
    ∀ (ptrs : List Nat) (w : Heap (Watched β)),
      Ahead b all (sizes.map (fun n => .ask (.alloc n)) ++ script) ptrs w.unwatched w →
      Ends (sizes.mapM (alignedBlock b.watched)) w
        (fun more w' => more.length = sizes.length ∧
          Ahead b all script (ptrs ++ more) w'.unwatched w') fun _ => Within all := by
  induction sizes with
  | nil =>
    intro ptrs w hw
    rw [List.mapM_nil, ends_pure, List.append_nil]
    exact ⟨rfl, hw⟩
  | cons n ns ih =>
    intro ptrs w hw
    rw [List.mapM_cons, ends_bind]
    refine (alignedBlock_asks hw).mono fun q w₁ hw₁ => ?_
    rw [ends_bind]
    refine (ih _ w₁ hw₁).mono fun more w₂ ⟨hlength, hw₂⟩ => ends_pure.2 ⟨?_, ?_⟩
    · rw [List.length_cons, hlength, List.length_cons]
    · rwa [List.append_assoc] at hw₂

/-- Blocks are given back in the order in which they came. -/
theorem givenBack_ends :
    ∀ (ptrs : List Nat) (w : Heap (Watched β)),
      Ahead b all (List.replicate ptrs.length .giveBack) ptrs w.unwatched w →
      Ends (ptrs.forM fun p => call (b.watched.free p)) w
        (fun _ w' => Ahead b all [] [] w'.unwatched w') fun _ => Within all :=
  ends_forM_rest fun _ _ _ hw => Ahead.givesBack hw

theorem alignment_plays (b : Backend β) (h : Heap β) :
    Plays b (alignmentScript b.maxAlign) (alignment b) (sightings (alignment b.watched) h) h := by
  apply plays_of_ends (follows_alignment b)
  unfold alignment
  rw [ends_bind, ends_call]
  by_cases hdouble : b.watched.maxAlign * 2 < Word.limit
  · have hsizes : alignmentSizes b.watched.maxAlign = .ok _ := if_pos hdouble
    rw [hsizes, ends_ofExcept_ok, ends_bind]
    apply (alignedBlocks_ask _ [] h.watched ?_).mono
    · rintro ptrs w ⟨hlength, hw⟩
      apply givenBack_ends ptrs w
      rw [hlength]
      exact hw
    · rw [List.map_flatMap]
      exact ahead_watched _ h
  · have hsizes : alignmentSizes b.watched.maxAlign = .error .mulOverflow := if_neg hdouble
    rw [hsizes]
    exact ends_throw.2 (ahead_watched _ h).within

end Alignment

end Conformance

end HeapLedger
