import HeapLedger.Proofs.Ledger.Demands
import HeapLedger.Proofs.Ledger.Requests
import HeapLedger.Proofs.Strategy.Alignment

/-!
# `HeapLedger/Proofs/Strategy/Sightings.lean` — what is asked behind a header, and what comes of it

For a headered strategy it can be said to the byte what an order or a resize asks of the backend and
what block comes of it. Sizes and costs depend on the numbers of the request alone, and where the
backend puts a block does not enter (`take_yields`, `realloc_yields`). What is asked is one request
for memory, if there is a word for its size, and for an over-aligned block that has been resized the
old block goes back after it (`take_asks`, `realloc_asks`).
-/

set_option autoImplicit false

namespace HeapLedger

variable {β : Type}

/-! ## Diaries -/

/-- Whether a request for memory was granted in the heap that it found. -/
def Sighting.verdict (b : Backend β) (s : Sighting β) : Option Bool :=
  s.request.size?.map fun _ =>
    match s.request.ask b s.heap with
    | .ok none _ => false
    | _ => true

/-- What was asked of the backend from one heap to another, in order, and how those of the requests
were answered that are for memory. -/
def Wrote (b : Backend β) (h h' : Heap (Watched β)) (requests : List Request)
    (verdicts : List Bool) : Prop :=
  ∃ news : List (Sighting β), h'.state.seen = news.reverse ++ h.state.seen ∧
    news.map Sighting.request = requests ∧ news.filterMap (Sighting.verdict b) = verdicts

/-- One request is made if there is a word for its size, and the other ones when it is granted. -/
def Asked (b : Backend β) (request : Request) (total : Nat) (granted : Bool) (after : List Request)
    (h h' : Heap (Watched β)) : Prop :=
  Wrote b h h' ((if total < Word.limit then [request] else []) ++ if granted then after else [])
      (if total < Word.limit then [granted] else []) ∧
    (granted = true → total < Word.limit)

section Diaries

variable {b : Backend β} {h h' h'' : Heap (Watched β)} {requests requests' : List Request}
  {verdicts verdicts' : List Bool} {request : Request} {total : Nat}

theorem Wrote.nothing (hstate : h'.state = h.state) : Wrote b h h' [] [] :=
  ⟨[], by rw [hstate]; rfl, rfl, rfl⟩

theorem Wrote.trans (w : Wrote b h h' requests verdicts) (w' : Wrote b h' h'' requests' verdicts') :
    Wrote b h h'' (requests ++ requests') (verdicts ++ verdicts') := by
  obtain ⟨news, hseen, rfl, rfl⟩ := w
  obtain ⟨news', hseen', rfl, rfl⟩ := w'
  refine ⟨news ++ news', ?_, List.map_append, List.filterMap_append⟩
  rw [hseen', hseen, List.reverse_append, List.append_assoc]

/-- Memory that is written to is no matter between strategy and backend. -/
theorem Wrote.still (w : Wrote b h h' requests verdicts) (hstate : h''.state = h'.state) :
    Wrote b h h'' requests verdicts := by
  have w' := w.trans (.nothing hstate)
  rwa [List.append_nil, List.append_nil] at w'

theorem Asked.still {granted : Bool} {after : List Request}
    (a : Asked b request total granted after h h') (hstate : h''.state = h'.state) :
    Asked b request total granted after h h'' :=
  ⟨a.1.still hstate, a.2⟩

/-- What is asked once the memory is there. -/
theorem Asked.followed {after : List Request} (a : Asked b request total true [] h h')
    (w : Wrote b h' h'' after []) : Asked b request total true after h h'' := by
  refine ⟨?_, a.2⟩
  have w' := a.1.trans w
  rwa [if_pos rfl, List.append_nil, List.append_nil] at w'

/-- What would have followed does not. -/
theorem Asked.refused {after after' : List Request}
    (a : Asked b request total false after h h') : Asked b request total false after' h h' :=
  a

theorem Asked.made {granted : Bool} (hlim : total < Word.limit)
    (w : Wrote b h h' [request] [granted]) : Asked b request total granted [] h h' := by
  unfold Asked
  rw [if_pos hlim, if_pos hlim, ite_self, List.append_nil]
  exact ⟨w, fun _ => hlim⟩

theorem Asked.unmade (hlim : ¬ total < Word.limit) (hstate : h'.state = h.state) :
    Asked b request total false [] h h' := by
  unfold Asked
  rw [if_neg hlim, if_neg hlim]
  exact ⟨.nothing hstate, fun hnone => nomatch hnone⟩

/-- A request for memory is written down with its answer. -/
theorem wrote_ask (hsize : request.size?.isSome) :
    Ends ((request.ask b).watch request) h (fun r h' => Wrote b h h' [request] [r.isSome])
      fun _ _ => True := by
  obtain ⟨n, hn⟩ := Option.isSome_iff_exists.1 hsize
  rw [ends_watch]
  apply ends_of_run
  intro r h' hrun
  refine ⟨[⟨h.unwatched, request⟩], rfl, rfl, ?_⟩
  have hverdict : Sighting.verdict b ⟨h.unwatched, request⟩ = some r.isSome := by
    unfold Sighting.verdict
    rw [hn, hrun]
    cases r <;> rfl
  rw [List.filterMap_cons_some hverdict]
  rfl

/-- Other requests have no answer to write down. -/
theorem wrote_watch {α : Type} {op : HeapOp β α} (hsize : request.size? = none) :
    Ends (op.watch request) h (fun _ h' => Wrote b h h' [request] []) fun _ _ => True := by
  rw [ends_watch]
  apply ends_of_run
  intro r h' _
  refine ⟨[⟨h.unwatched, request⟩], rfl, rfl, ?_⟩
  have hverdict : Sighting.verdict b ⟨h.unwatched, request⟩ = none := by
    unfold Sighting.verdict
    rw [hsize]
    rfl
  rw [List.filterMap_cons_none hverdict]
  rfl

end Diaries

/-- The header of a block that is made for an order. -/
def Order.header : Order → Header
  | plain n | zeroed n => ⟨n, 0⟩
  | aligned n align => ⟨n, align⟩

/-- What the backend is asked for an order. -/
def Order.request (w : Nat) (o : Order) : Request :=
  match o with
  | plain _ | aligned _ _ => .alloc (Header.cost w o.header)
  | zeroed _ => .allocZeroed (Header.cost w o.header)

namespace Strategy.Headered

variable {b : Backend β} {n : Nat} {o : Order}

/-! ## Sizes and costs -/

section Yields

variable {h : Heap β}

/-- The block is as big as it was asked for, and costs its header too. -/
def Bears (b : Backend β) (x : Header) (block : Block) : Prop :=
  block.usable = x.size ∧ block.footprint = Header.cost (width b) x

theorem stamp_yields {raw : Nat} (hlim : n + width b < Word.limit) :
    Returns (stamp b raw n) h fun block _ => Bears b ⟨n, 0⟩ block :=
  Ends.intro_ok (stamp_eq hlim) ⟨rfl, rfl⟩

theorem allocBy_yields (take : Nat → HeapOp β (Option Nat)) :
    Ends (allocBy b take n) h (fun r _ => ∀ block ∈ r, Bears b ⟨n, 0⟩ block) fun _ _ => True := by
  unfold allocBy
  cases hsize : Header.plainSize (width b) n with
  | none => exact ends_pure.2 forall_mem_none
  | some total =>
    obtain ⟨hlim, rfl⟩ := Header.plainSize_eq_some.1 hsize
    rw [ends_bind]
    apply ends_of_run
    intro r h₁ _
    cases r with
    | none => exact ends_pure.2 forall_mem_none
    | some raw =>
      rw [ends_map]
      apply (stamp_yields hlim).imp
      rintro block h₂ hbears _ ⟨⟩
      exact hbears

theorem stampAligned_yields {raw align : Nat} (hne : align ≠ 0)
    (hlim : n + width b + Word.bytes + align < Word.limit) :
    Ends (stampAligned b raw n align) h (fun block _ => Bears b ⟨n, align⟩ block)
      fun _ _ => True := by
  have hcost : Header.cost (width b) ⟨n, align⟩ = n + width b + Word.bytes + align := if_neg hne
  unfold stampAligned
  rw [ends_bind]
  apply ends_of_run
  intro ptr h₁ _
  rw [ends_bind, ends_mapMemory, ends_bind, Header.footprint_eq (by rw [hcost]; exact hlim),
    ends_ofExcept_ok, ends_pure]
  exact ⟨rfl, rfl⟩

/-- The block that comes of an order. -/
theorem take_yields (ho : o.Passes b.maxAlign) :
    Ends (o.take (headered b)) h (fun r _ => ∀ block ∈ r, Bears b o.header block)
      fun _ _ => True := by
  cases o with
  | plain n => exact allocBy_yields _
  | zeroed n => exact allocBy_yields _
  | aligned n align =>
    obtain ⟨-, -, hpow, hbeyond, -⟩ := ho
    have hne : align ≠ 0 := Nat.pos_iff_ne_zero.1 (Nat.pos_of_isPowerOfTwo hpow)
    show Ends (allocAligned b n align) h _ _
    unfold allocAligned
    rw [if_neg (not_not_intro hpow), if_neg (Nat.not_le_of_lt hbeyond)]
    cases hsize : Header.alignedSize (width b) n align with
    | none => exact ends_pure.2 forall_mem_none
    | some total =>
      obtain ⟨hlim, rfl⟩ := Header.alignedSize_eq_some.1 hsize
      rw [ends_bind]
      apply ends_of_run
      intro r h₁ _
      cases r with
      | none => exact ends_pure.2 forall_mem_none
      | some raw =>
        rw [ends_map]
        apply (stampAligned_yields hne hlim).mono
        rintro block h₂ hbears _ ⟨⟩
        exact hbears

/-- The block that comes of a resize is plain, whatever the old one was. -/
theorem resizeFar_yields {p size old : Nat} :
    Ends (resizeFar b p size n old) h (fun r _ => ∀ y ∈ r, Bears b ⟨n, 0⟩ y.block)
      fun _ _ => True := by
  unfold resizeFar
  rw [ends_bind]
  apply (allocBy_yields b.alloc).mono
  intro r h₁ hbears
  cases r with
  | none => exact ends_pure.2 forall_mem_none
  | some block =>
    rw [ends_bind, ends_mapMemory, ends_bind]
    apply ends_of_run
    intro cost h₂ _
    apply ends_pure.2
    rintro _ ⟨⟩
    exact hbears block rfl

end Yields

/-! ## Requests -/

section Asks

variable {h h' : Heap (Watched β)} {due : Lease → Nat → Prop} {c : b.watched.Contract due}
  {p : Nat} {d : Holding} {x : Header}

/-- The stamp is no matter for the backend. -/
theorem allocBy_asks {take : Nat → HeapOp (Watched β) (Option Nat)} (kind : Nat → Request)
    (hkind : ∀ total, ((kind total).size?).isSome)
    (htake : ∀ total, take total = ((kind total).ask b).watch (kind total)) :
    Ends (allocBy b.watched take n) h
      (fun r => Asked b (kind (n + width b)) (n + width b) r.isSome [] h) fun _ _ => True := by
  have hquiet : ∀ raw, Quiet (stamp b.watched raw n) := fun raw =>
    Stack.quiet_finish (.headered b.watched) (.plain n) raw
  unfold allocBy
  rw [width_watched]
  cases hsize : Header.plainSize (width b) n with
  | none =>
    apply ends_pure.2
    have hlim : ¬ n + width b < Word.limit := by
      intro hlim
      rw [Header.plainSize_eq_some.2 ⟨hlim, rfl⟩] at hsize
      cases hsize
    exact .unmade hlim rfl
  | some total =>
    obtain ⟨hlim, rfl⟩ := Header.plainSize_eq_some.1 hsize
    simp only
    rw [ends_bind, htake]
    apply (wrote_ask (hkind _)).mono
    intro r h₁ hwrote
    have hasked := Asked.made hlim hwrote
    cases r with
    | none => exact ends_pure.2 hasked
    | some raw =>
      simp only
      rw [ends_map]
      apply (hquiet raw h₁).imp
      · intro block h₂ hstate
        exact hasked.still hstate
      · intros
        trivial

/-- An order is asked for once. -/
theorem take_asks (ho : o.Passes b.maxAlign) :
    Ends (o.take (headered b.watched)) h
      (fun r => Asked b (o.request (width b)) (Header.cost (width b) o.header) r.isSome [] h)
      fun _ _ => True := by
  cases o with
  | plain n => exact allocBy_asks .alloc (fun _ => rfl) fun _ => rfl
  | zeroed n => exact allocBy_asks .allocZeroed (fun _ => rfl) fun _ => rfl
  | aligned n align =>
    obtain ⟨-, -, hpow, hbeyond, -⟩ := ho
    have hne : align ≠ 0 := Nat.pos_iff_ne_zero.1 (Nat.pos_of_isPowerOfTwo hpow)
    have hcost : Header.cost (width b) ⟨n, align⟩ = n + width b + Word.bytes + align := if_neg hne
    have hbeyond' : ¬ align ≤ b.watched.maxAlign := Nat.not_le_of_lt hbeyond
    have hquiet : ∀ raw, Quiet (stampAligned b.watched raw n align) := fun raw =>
      Stack.quiet_finish (.headered b.watched) (.aligned n align) raw
    show Ends (allocAligned b.watched n align) h _ _
    unfold allocAligned
    rw [if_neg (not_not_intro hpow), if_neg hbeyond', width_watched]
    show Ends _ h (fun r : Option Block => Asked b (.alloc (Header.cost (width b) ⟨n, align⟩))
      (Header.cost (width b) ⟨n, align⟩) r.isSome [] h) _
    rw [hcost]
    cases hsize : Header.alignedSize (width b) n align with
    | none =>
      apply ends_pure.2
      have hlim : ¬ n + width b + Word.bytes + align < Word.limit := by
        intro hlim
        rw [Header.alignedSize_eq_some.2 ⟨hlim, rfl⟩] at hsize
        cases hsize
      exact Asked.unmade hlim rfl
    | some total =>
      obtain ⟨hlim, rfl⟩ := Header.alignedSize_eq_some.1 hsize
      simp only
      have hsize : (Request.alloc (n + width b + Word.bytes + align)).size?.isSome := rfl
      rw [ends_bind]
      apply (wrote_ask hsize).mono
      intro r h₁ hwrote
      have hasked := Asked.made hlim hwrote
      cases r with
      | none => exact ends_pure.2 hasked
      | some raw =>
        simp only
        rw [ends_map]
        apply (hquiet raw h₁).imp
        · intro block h₂ hstate
          exact hasked.still hstate
        · intros
          trivial

/-- A block goes back by the backend's pointer and with what was asked for. -/
theorem release_asks (hf : Found b.watched c.toSurvey p d h x) :
    Ends (release b.watched p x) h
      (fun _ h' => Wrote b h h' [.freeSized d.start d.footprint] []) fun _ _ => True := by
  have hcost : Header.footprint (width b.watched) x = .ok d.footprint := hf.cost
  unfold release
  rw [ends_bind, hcost, ends_ofExcept_ok, ends_bind, ends_get, hf.start, ends_bind]
  exact (wrote_watch rfl).mono fun _ _ hwrote => ends_pure.2 hwrote

theorem free_asks (hf : Found b.watched c.toSurvey p d h x) :
    Ends (free b.watched p) h
      (fun _ h' => Wrote b h h' [.freeSized d.start d.footprint] []) fun _ _ => True := by
  unfold free
  rw [ends_bind, header_ends hf]
  exact release_asks hf

/-- A plain block is resized by the backend. -/
theorem resizePlain_asks {raw old : Nat} :
    Ends (resizePlain b.watched raw n old) h
      (fun r => Asked b (.realloc raw (n + width b)) (n + width b) r.isSome [] h)
      fun _ _ => True := by
  rw [resizePlain_eq, ends_map]
  apply (allocBy_asks (.realloc raw) (fun _ => rfl) fun _ => rfl).mono
  intro r h' hasked
  cases r <;> exact hasked

/-- For an over-aligned block a new one is asked for, and the old one goes back when it is there. -/
theorem resizeFar_asks (hv : c.valid h) (hp : (custody c).stands p d h) (hn : 0 < n)
    (hlt : n < Size.bound) {old : Nat} :
    Ends (resizeFar b.watched p d.usable n old) h
      (fun r => Asked b (.alloc (n + width b)) (n + width b) r.isSome
        [.freeSized d.start d.footprint] h) fun _ _ => True := by
  have hserves : Returns (allocBy b.watched b.watched.alloc n) h ((custody c).Served none n h) :=
    allocBy_ends hv hn hlt fun total hpos hlim => c.alloc hv hpos hlim
  unfold resizeFar
  rw [ends_bind]
  apply (hserves.also (allocBy_asks .alloc (fun _ => rfl) fun _ => rfl)).imp
  intro r h₁ hr
  obtain ⟨hserved, hasked⟩ := hr
  cases r with
  | none => exact ends_pure.2 hasked
  | some block =>
    obtain ⟨e, t, hq, -, -, hne⟩ := hserved
    have hlen : min d.usable n ≤ e.usable := Nat.le_trans (Nat.min_le_right _ _) hne
    -- The header of the old block is still there when the content has been copied.
    obtain ⟨hcopy, -⟩ := Custody.trade_copy (p := p) t.valid hq t hlen
    have hp' := Custody.stands_of_trade hp hv hcopy (by simp)
    obtain ⟨x, hf⟩ := found hcopy.valid hp'
    rw [ends_bind, ends_mapMemory, ends_bind]
    apply (free_asks hf).mono
    intro cost h₂ hwrote
    exact ends_pure.2 ((hasked.still rfl).followed hwrote)

/-- Which way a block is resized shows in what is asked, and not in what comes of it. -/
theorem realloc_asks (hv : c.valid h) (hp : (custody c).stands p d h)
    (hf : Found b.watched c.toSurvey p d h x) (hn : 0 < n) (hlt : n < Size.bound) :
    Ends (realloc b.watched p n) h
      (fun r => Asked b (if x.align = 0 then .realloc d.start (n + width b) else .alloc (n + width b))
        (n + width b) r.isSome (if x.align = 0 then [] else [.freeSized d.start d.footprint]) h)
      fun _ _ => True := by
  by_cases hplain : x.align = 0
  · rw [ends_realloc_plain hf hplain, if_pos hplain, if_pos hplain]
    exact resizePlain_asks
  · rw [ends_realloc_far hf hplain, ← hf.usable, if_neg hplain, if_neg hplain]
    exact resizeFar_asks hv hp hn hlt

theorem realloc_yields {h : Heap β} {due : Lease → Nat → Prop} {c : b.Contract due}
    (hf : Found b c.toSurvey p d h x) :
    Ends (realloc b p n) h (fun r _ => ∀ y ∈ r, Bears b ⟨n, 0⟩ y.block) fun _ _ => True := by
  by_cases hplain : x.align = 0
  · rw [ends_realloc_plain hf hplain, resizePlain_eq, ends_map]
    apply (allocBy_yields _).mono
    intro r h' hbears y hy
    obtain ⟨block, hblock, rfl⟩ := Option.map_eq_some_iff.1 hy
    exact hbears block hblock
  · rw [ends_realloc_far hf hplain]
    exact resizeFar_yields

end Asks

/-! ## Blocks that come -/

section Arrivals

variable {h h' : Heap β} {due : Lease → Nat → Prop} {c : b.Contract due} {gone : Option Nat}
  {x : Header} {q : Nat} {e : Holding}

/-- A block with this header has come, in place of the one at `gone`, if any. -/
structure Arrived (c : b.Contract due) (gone : Option Nat) (x : Header) (q : Nat) (e : Holding)
    (h h' : Heap β) : Prop where
  trade : c.Trade gone (some (e.start, e.lease)) h h'
  stands : (custody c).stands q e h'
  usable : e.usable = x.size
  footprint : e.footprint = Header.cost (width b) x

theorem Arrived.found (ha : Arrived c gone x q e h h') : Found b c.toSurvey q e h' x := by
  obtain ⟨y, hf⟩ := Headered.found ha.trade.valid ha.stands
  obtain rfl : x = y :=
    Header.eq_of_cost_eq (ha.usable.symm.trans hf.usable) (ha.footprint.symm.trans hf.booked)
  exact hf

theorem Arrived.write (ha : Arrived c gone x q e h h') {m : Memory}
    (hm : ∀ a, m.byte a ≠ h'.memory.byte a → q ≤ a ∧ a < q + x.size) :
    Arrived c gone x q e h ⟨m, h'.state⟩ := by
  rw [← ha.usable] at hm
  obtain ⟨t, hstands⟩ := Custody.trade_write ha.trade.valid ha.stands ha.trade hm
  exact ⟨t, hstands, ha.usable, ha.footprint⟩

/-- The block comes and then another goes. -/
theorem Arrived.move {p : Nat} {d : Holding} {h'' : Heap β} (hp : (custody c).stands p d h)
    (ha : Arrived c none x q e h h') (t : c.Trade (some d.start) none h' h'') : Arrived c (some d.start) x q e h h'' := by
  have hlive := (custody c).lease hp
  have hne : some d.start ≠ some e.start := fun hsame =>
    ha.trade.ne_came hlive (by simp) (Option.some.inj hsame)
  exact ⟨ha.trade.move hlive t, Custody.stands_of_trade ha.stands ha.trade.valid t hne, ha.usable,
    ha.footprint⟩

theorem arrived_of_served {block : Block} (hserved : (custody c).Served gone n h (some block) h')
    (hbears : Bears b x block) : ∃ e, Arrived c gone x block.ptr e h h' := by
  obtain ⟨e, t, hstands, husable, hcost, -⟩ := hserved
  exact ⟨e, t, hstands, husable.symm.trans hbears.1, hcost.symm.trans hbears.2⟩

end Arrivals

section Comings

variable {h : Heap (Watched β)} {due : Lease → Nat → Prop} {c : b.watched.Contract due}
  {p : Nat} {d : Holding} {x : Header}

/-- All that there is to know about an order. -/
theorem take_comes (hv : c.valid h) (ho : o.Passes b.maxAlign) :
    Returns (o.take (headered b.watched)) h fun r h' =>
      Asked b (o.request (width b)) (Header.cost (width b) o.header) r.isSome [] h h' ∧
        ∀ block ∈ r, block.usable = o.header.size ∧
          ∃ e, Arrived c none o.header block.ptr e h h' := by
  have hserves : Returns (o.take (headered b.watched)) h ((custody c).Served none o.size h) := by
    cases o with
    | plain n => exact allocBy_ends hv ho.1 ho.2 fun _ hpos hlim => c.alloc hv hpos hlim
    | zeroed n => exact allocBy_ends hv ho.1 ho.2 fun _ hpos hlim => c.allocZeroed hv hpos hlim
    | aligned n align =>
      obtain ⟨hpos, hlt, hpow, hbeyond, -⟩ := ho
      exact allocAligned_ends hv hpos hlt hpow hbeyond
  apply ((hserves.also (take_yields ho)).also (take_asks ho)).imp
  intro r h' hr
  obtain ⟨⟨hserved, hbears⟩, hasked⟩ := hr
  refine ⟨hasked, ?_⟩
  rintro block ⟨⟩
  exact ⟨(hbears block rfl).1, arrived_of_served hserved (hbears block rfl)⟩

/-- All that there is to know about a resize. -/
theorem realloc_comes (hexact : ∀ l, l.asked ≤ l.bytes → due l l.asked) (hv : c.valid h)
    (hp : (custody c).stands p d h) (hf : Found b.watched c.toSurvey p d h x) (hn : 0 < n)
    (hlt : n < Size.bound) :
    Returns (realloc b.watched p n) h fun r h' =>
      Asked b (if x.align = 0 then .realloc d.start (n + width b) else .alloc (n + width b))
          (n + width b) r.isSome (if x.align = 0 then [] else [.freeSized d.start d.footprint])
          h h' ∧
        ∀ y ∈ r, y.block.usable = n ∧
          ∃ e, Arrived c (some d.start) ⟨n, 0⟩ y.block.ptr e h h' := by
  have hserves := realloc_ends hexact hv hp hn hlt
  apply ((hserves.also (realloc_yields hf)).also (realloc_asks hv hp hf hn hlt)).imp
  intro r h' hr
  obtain ⟨⟨⟨hserved, -⟩, hbears⟩, hasked⟩ := hr
  refine ⟨hasked, ?_⟩
  rintro y ⟨⟩
  exact ⟨(hbears y rfl).1, arrived_of_served hserved (hbears y rfl)⟩

end Comings

end Strategy.Headered

end HeapLedger
