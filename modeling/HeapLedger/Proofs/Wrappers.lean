import HeapLedger.Proofs.Ledger.Demands
import HeapLedger.Proofs.Ledger.Requests
import HeapLedger.Proofs.Traffic

/-!
# `HeapLedger/Proofs/Wrappers.lean` — backends behind wrappers

A backend that is reached through a reference is the backend, whatever it has of its own among the
operations that have a default. A capped backend is the backend as long as no request is beyond the
cap. How much a call will ask the backend for can be told in advance (`Stack.sent`): what the caller
wants, and behind headers what a header takes in addition. So a run is the same with the cap as
without it up to the first call for more than the cap. That call fails as if there were no memory,
the backend does not learn of it, and nothing has changed.

The one thing by which a wrapped backend can be told is its name, which is part of the ledger's
record and of nothing else.
-/

set_option autoImplicit false

namespace HeapLedger

variable {β : Type}

namespace Stack

variable (u : Stack β) (cap : Nat)

/-- The same over a reference to the backend. -/
def borrowed : Stack β → Stack β
  | native b => native b.borrowed
  | headered b => headered b.borrowed

/-- The same over a backend with a cap. -/
def capped (cap : Nat) : Stack β → Stack β
  | native b => native (b.capped cap)
  | headered b => headered (b.capped cap)

/-- The bytes that the backend is asked for, if it is asked. A header is room in front, and beyond
the backend's own alignment one more word and a whole alignment are. -/
def sent : Stack β → Demand → Nat
  | native _, .order (.plain n) | native _, .order (.zeroed n)
  | native _, .order (.aligned n _) | native _, .resize _ n => n
  | headered b, .order (.plain n) | headered b, .order (.zeroed n)
  | headered b, .resize _ n => n + Strategy.Headered.width b
  | headered b, .order (.aligned n align) =>
      n + Strategy.Headered.width b + Word.bytes + align

/-- The same over a backend that answers questions in another way: how long a block is, and what there
is to report. -/
def answering (size : Nat → Heap β → Except Fault Nat) (report : β → AllocatorInfo) :
    Stack β → Stack β
  | native b => native { b with blockSize := size, info := report }
  | headered b => headered { b with info := report }

theorem borrowed_eq : u.borrowed = u := by
  cases u with
  | native b => rfl
  | headered b => rfl

theorem alike_capped : (u.capped cap).strategy.Alike u.strategy := by
  cases u with
  | native b => exact ⟨rfl, rfl, rfl, rfl, rfl, rfl, rfl, rfl⟩
  | headered b => exact ⟨rfl, rfl, rfl, rfl, rfl, rfl, rfl, rfl⟩

theorem sent_watched (x : Demand) : u.watched.sent x = u.sent x := by
  cases u with
  | native b =>
    cases x with
    | order o => cases o <;> rfl
    | resize p n => rfl
  | headered b =>
    cases x with
    | order o => cases o <;> rfl
    | resize p n => rfl

section Answering

variable (size : Nat → Heap β → Except Fault Nat) (report : β → AllocatorInfo)

theorem maxAlign_answering : (u.answering size report).backend.maxAlign = u.backend.maxAlign := by
  cases u with
  | native b => rfl
  | headered b => rfl

theorem sent_answering (x : Demand) : (u.answering size report).sent x = u.sent x := by
  cases u with
  | native b =>
    cases x with
    | order o => cases o <;> rfl
    | resize p n => rfl
  | headered b =>
    cases x with
    | order o => cases o <;> rfl
    | resize p n => rfl

end Answering

end Stack

/-! ## Below the cap -/

namespace Strategy.Headered

variable {b : Backend β} {cap n align : Nat}

theorem width_capped : width (b.capped cap) = width b :=
  rfl

theorem allocBy_capped {take take' : Nat → HeapOp β (Option Nat)}
    (hfits : n + width b < Word.limit → take' (n + width b) = take (n + width b)) :
    allocBy (b.capped cap) take' n = allocBy b take n := by
  unfold allocBy
  rw [width_capped]
  cases hsum : Header.plainSize (width b) n with
  | none => rfl
  | some total =>
    obtain ⟨hlimit, rfl⟩ := Header.plainSize_eq_some.1 hsum
    simp only [hfits hlimit]
    rfl

theorem allocAligned_capped (ho : (Order.aligned n align).Passes b.maxAlign)
    (hcap : n + width b + Word.bytes + align < Word.limit →
      n + width b + Word.bytes + align ≤ cap) :
    allocAligned (b.capped cap) n align = allocAligned b n align := by
  obtain ⟨-, -, hpow, hbeyond, -⟩ := ho
  have hbeyond' : ¬ align ≤ (b.capped cap).maxAlign := Nat.not_le_of_lt hbeyond
  unfold allocAligned
  rw [if_neg (not_not_intro hpow), if_neg (not_not_intro hpow), if_neg hbeyond', if_neg
    (Nat.not_le_of_lt hbeyond), width_capped]
  cases hsum : Header.alignedSize (width b) n align with
  | none => rfl
  | some total =>
    obtain ⟨hlimit, rfl⟩ := Header.alignedSize_eq_some.1 hsum
    have hsame : (b.capped cap).alloc _ = b.alloc _ := if_neg (Nat.not_lt_of_le (hcap hlimit))
    simp only [hsame]
    rfl

theorem realloc_capped {p : Nat} (hcap : n + width b < Word.limit → n + width b ≤ cap) :
    realloc (b.capped cap) p n = realloc b p n := by
  have hif : ∀ {op : HeapOp β (Option Nat)}, n + width b < Word.limit →
      (if cap < n + width b then pure none else op) = op := fun hlimit =>
    if_neg (Nat.not_lt_of_le (hcap hlimit))
  have hplain : ∀ raw old, resizePlain (b.capped cap) raw n old = resizePlain b raw n old := by
    intro raw old
    rw [resizePlain_eq, resizePlain_eq, allocBy_capped hif]
  have hfar : ∀ size old, resizeFar (b.capped cap) p size n old = resizeFar b p size n old := by
    intro size old
    unfold resizeFar
    rw [allocBy_capped hif]
    rfl
  rw [realloc_def, realloc_def]
  simp only [hplain, hfar]
  rfl

/-! ## Beyond the cap -/

theorem allocBy_refused {take : Nat → HeapOp β (Option Nat)} (hcap : cap < n + width b)
    (htake : ∀ total, cap < total → take total = pure none) :
    allocBy (b.capped cap) take n = pure none := by
  unfold allocBy
  rw [width_capped]
  cases hsum : Header.plainSize (width b) n with
  | none => rfl
  | some total =>
    obtain ⟨-, rfl⟩ := Header.plainSize_eq_some.1 hsum
    simp only [htake _ hcap]
    rfl

theorem allocAligned_refused (ho : (Order.aligned n align).Passes b.maxAlign)
    (hcap : cap < n + width b + Word.bytes + align) :
    allocAligned (b.capped cap) n align = pure none := by
  obtain ⟨-, -, hpow, hbeyond, -⟩ := ho
  have hbeyond' : ¬ align ≤ (b.capped cap).maxAlign := Nat.not_le_of_lt hbeyond
  unfold allocAligned
  rw [if_neg (not_not_intro hpow), if_neg hbeyond', width_capped]
  cases hsum : Header.alignedSize (width b) n align with
  | none => rfl
  | some total =>
    obtain ⟨-, rfl⟩ := Header.alignedSize_eq_some.1 hsum
    have hrefused : (b.capped cap).alloc _ = pure none := if_pos hcap
    simp only [hrefused]
    rfl

/-- The header of a block that is to be resized has been read by then. -/
theorem realloc_refused {p cost : Nat} {h : Heap β} (hcap : cap < n + width b)
    (hread : (headered b).footprint p h = .ok cost) :
    realloc (b.capped cap) p n h = .ok none h := by
  have halloc : allocBy (b.capped cap) (b.capped cap).alloc n = pure none :=
    allocBy_refused hcap fun _ hlt => if_pos hlt
  have hrealloc : ∀ raw, allocBy (b.capped cap) ((b.capped cap).realloc raw) n = pure none :=
    fun raw => allocBy_refused hcap fun _ hlt => if_pos hlt
  change (Header.read h.memory p >>= Header.footprint (width b)) = .ok cost at hread
  cases hx : Header.read h.memory p with
  | error e =>
    rw [hx] at hread
    cases hread
  | ok x =>
    rw [hx] at hread
    change Header.footprint (width (b.capped cap)) x = .ok cost at hread
    rw [realloc_run hx hread]
    by_cases hfar : x.align ≠ 0
    · rw [if_pos hfar]
      unfold resizeFar
      rw [halloc]
      rfl
    · rw [if_neg hfar, resizePlain_eq, hrealloc]
      rfl

end Strategy.Headered

namespace Stack

variable {u : Stack β} {cap : Nat} {x : Demand}

/-- The cap is not noticed if what would be sent is not beyond it. A sum that leaves the word is not
sent in any case. -/
theorem agree_capped (hx : x.Passes u.backend.maxAlign)
    (hcap : u.sent x < Word.limit → u.sent x ≤ cap) :
    x.Agree (u.capped cap).strategy u.strategy := by
  have hif : ∀ {α : Type} {n : Nat} {op op' : α}, n ≤ cap → (if cap < n then op' else op) = op :=
    fun h => if_neg (Nat.not_lt_of_le h)
  cases u with
  | native b =>
    have hword : x.size < Word.limit :=
      Nat.lt_of_lt_of_le (Demand.size_of_passes hx).2 Strategy.bound_le_limit
    have hle : x.size ≤ cap := by
      cases x with
      | order o => cases o <;> exact hcap hword
      | resize p n => exact hcap hword
    cases x with
    | order o =>
      cases o with
      | plain n =>
        change ((b.capped cap).alloc n >>= _) = (b.alloc n >>= _)
        rw [show (b.capped cap).alloc n = b.alloc n from hif hle]
        rfl
      | zeroed n =>
        change ((b.capped cap).allocZeroed n >>= _) = (b.allocZeroed n >>= _)
        rw [show (b.capped cap).allocZeroed n = b.allocZeroed n from hif hle]
        rfl
      | aligned n align =>
        change ((b.capped cap).allocAligned n align >>= _) = (b.allocAligned n align >>= _)
        rw [show (b.capped cap).allocAligned n align = b.allocAligned n align from hif hle]
        rfl
    | resize p n =>
      have hsame : (b.capped cap).realloc p n = b.realloc p n := hif hle
      show (Strategy.native (b.capped cap)).realloc p n = (Strategy.native b).realloc p n
      unfold Strategy.native
      simp only [hsame]
      rfl
  | headered b =>
    cases x with
    | order o =>
      cases o with
      | plain n => exact Strategy.Headered.allocBy_capped fun hlimit => hif (hcap hlimit)
      | zeroed n => exact Strategy.Headered.allocBy_capped fun hlimit => hif (hcap hlimit)
      | aligned n align => exact Strategy.Headered.allocAligned_capped hx hcap
    | resize p n => exact Strategy.Headered.realloc_capped hcap

/-- Beyond the cap there is nothing, once it is known what a block that is to be resized costs. -/
theorem refused_capped (hx : x.Passes u.backend.maxAlign) (hcap : cap < u.sent x) {h : Heap β}
    (hread : ∀ p n, x = .resize p n → ∃ cost, u.strategy.footprint p h = .ok cost) :
    x.Refused (u.capped cap).strategy h := by
  have hif : ∀ {n : Nat} {op : HeapOp β (Option Nat)}, cap < n →
      (if cap < n then pure none else op) = pure none := fun h => if_pos h
  cases u with
  | native b =>
    cases x with
    | order o =>
      cases o with
      | plain n =>
        change ((b.capped cap).alloc n >>= _) h = .ok none h
        rw [show (b.capped cap).alloc n = pure none from hif hcap]
        rfl
      | zeroed n =>
        change ((b.capped cap).allocZeroed n >>= _) h = .ok none h
        rw [show (b.capped cap).allocZeroed n = pure none from hif hcap]
        rfl
      | aligned n align =>
        change ((b.capped cap).allocAligned n align >>= _) h = .ok none h
        rw [show (b.capped cap).allocAligned n align = pure none from hif hcap]
        rfl
    | resize p n =>
      obtain ⟨cost, hcost⟩ := hread p n rfl
      have hquery : HeapOp.query ((b.capped cap).blockSize p) h = .ok cost h := run_query hcost
      change (HeapOp.query ((b.capped cap).blockSize p) >>= fun _ =>
        (b.capped cap).realloc p n >>= _) h = .ok none h
      rw [run_bind_ok hquery, show (b.capped cap).realloc p n = pure none from hif hcap]
      rfl
  | headered b =>
    cases x with
    | order o =>
      cases o with
      | plain n => exact congrFun (Strategy.Headered.allocBy_refused hcap fun _ => hif) h
      | zeroed n => exact congrFun (Strategy.Headered.allocBy_refused hcap fun _ => hif) h
      | aligned n align => exact congrFun (Strategy.Headered.allocAligned_refused hx hcap) h
    | resize p n =>
      obtain ⟨cost, hcost⟩ := hread p n rfl
      exact Strategy.Headered.realloc_refused hcap hcost

end Stack

/-! ## A backend with a cap keeps its contract -/

/-- The survey, for heaps where no block was asked for beyond the cap. -/
def Survey.capped (v : Survey β) (cap : Nat) : Survey β where
  valid := fun h => v.valid h ∧ ∀ p l, v.live h p = some l → l.asked ≤ cap
  live := v.live
  fits := fun hv => v.fits hv.1
  apart := fun hv => v.apart hv.1
  write := fun hv hm => by
    obtain ⟨hvalid, hlive⟩ := v.write hv.1 hm
    refine ⟨⟨hvalid, ?_⟩, hlive⟩
    rw [hlive]
    exact hv.2

section Keeping

variable {v : Survey β} {cap n : Nat} {h h' : Heap β} {gone : Option Nat}
  {came : Option (Nat × Lease)}

theorem Survey.Trade.capped (hv : (v.capped cap).valid h)
    (hcame : ∀ q l, came = some (q, l) → l.asked ≤ cap) (t : v.Trade gone came h h') :
    (v.capped cap).Trade gone came h h' where
  valid := by
    refine ⟨t.valid, ?_⟩
    intro p l hp
    rw [t.live] at hp
    rcases exchange_eq_some hp with hnew | ⟨-, hold⟩
    · exact hcame p l hnew
    · exact hv.2 p l hold
  live := t.live
  fresh := t.fresh
  kept := t.kept

theorem Survey.Served.capped {r : Option Nat} (hv : (v.capped cap).valid h) (hn : n ≤ cap)
    (hserved : v.Served gone n h r h') : (v.capped cap).Served gone n h r h' := by
  cases r with
  | none =>
    apply Survey.Trade.capped hv ?_ hserved
    intro q l hcame
    cases hcame
  | some q =>
    obtain ⟨bytes, t⟩ := hserved
    refine ⟨bytes, t.capped hv ?_⟩
    intro q l hcame
    cases hcame
    exact hn

/-- What a backend does about a request, it does about those that are not beyond the cap. -/
theorem returns_capped {op : HeapOp β (Option Nat)} (hv : (v.capped cap).valid h)
    (hop : Returns op h (v.Served gone n h)) :
    Returns (if cap < n then pure none else op) h ((v.capped cap).Served gone n h) := by
  by_cases hcap : cap < n
  · rw [if_pos hcap]
    exact ends_pure.2 (Survey.Trade.refl hv)
  · rw [if_neg hcap]
    exact hop.imp fun _ _ hserved => hserved.capped hv (Nat.le_of_not_lt hcap)

/-- A cap does not make a backend break its contract, and no block was asked for beyond it. -/
def Backend.Contract.capped {b : Backend β} {due : Lease → Nat → Prop} (c : b.Contract due)
    (cap : Nat) : (b.capped cap).Contract due where
  toSurvey := c.toSurvey.capped cap
  alloc := fun hv hn hlim => returns_capped hv (c.alloc hv.1 hn hlim)
  allocZeroed := fun hv hn hlim => returns_capped hv (c.allocZeroed hv.1 hn hlim)
  allocAligned := fun hv hn hlim hpow hmax =>
    returns_capped hv (c.allocAligned hv.1 hn hlim hpow hmax)
  realloc := fun hv hl hn hlim => returns_capped hv (c.realloc hv.1 hl hn hlim)
  freeSized := fun hv hl hdue => (c.freeSized hv.1 hl hdue).imp fun _ _ t =>
    t.capped hv fun _ _ hcame => nomatch hcame
  setBackgroundThread := fun enable hv => (c.setBackgroundThread enable hv.1).imp fun _ _ t =>
    t.capped hv fun _ _ hcame => nomatch hcame
  purge := fun hv => (c.purge hv.1).imp fun _ _ t => t.capped hv fun _ _ hcame => nomatch hcame

end Keeping

namespace Desk

/-- Behind headers and a cap, no pointer that is out costs more than the cap. -/
theorem allocationSize_le_cap {b : Backend β} (c : b.Contract Lease.Admits) (cap : Nat)
    {host : Host} (hhost : host.Confined) {heap : Heap β} (hheap : c.valid heap)
    (hnone : ∀ q, c.live heap q = none) (slots : Nat) {ms : List Move}
    (hms : Lawful (.headered (b.capped cap)) host (opening heap slots) ms) :
    let s := Strategy.headered (b.capped cap)
    let d := run s host (opening heap slots) ms
    ∀ p ∈ d.live, ∃ n, Ledger.allocationSize s p d.ledger = .ok n d.ledger ∧ n ≤ cap := by
  intro s d p hp
  let a : Adapter β := .headered (b.capped cap) (c.capped cap)
  have hvalid : a.survey.valid heap := by
    refine ⟨hheap, ?_⟩
    intro q l hq
    change c.live heap q = some l at hq
    rw [hnone q] at hq
    cases hq
  obtain ⟨hs, hk, -⟩ := keeps_run a hhost hvalid slots hms
  obtain ⟨n, l, hsize, hl, hexactly⟩ := terms_allocationSize hk hp
  have hcap := hk.sound.holds.valid.2
  refine ⟨n, hsize, ?_⟩
  rw [hexactly.2]
  exact hcap _ l hl

/-! ## Runs -/

/-- How the calls of a run end. -/
def endings (s : Strategy β) (host : Host) : Desk β → List Move → List Ending
  | _, [] => []
  | d, .call a :: ms => (d.answer s host a).1 :: endings s host (d.after s host (.call a)) ms
  | d, m :: ms => endings s host (d.after s host m) ms

/-- Over both strategies the moves come to the same desk, and their calls end the same. -/
def SameRun (s' s : Strategy β) (host : Host) (d : Desk β) (ms : List Move) : Prop :=
  run s' host d ms = run s host d ms ∧ endings s' host d ms = endings s host d ms

/-- All calls are calls of the ledger, and none is for its record. -/
def Nameless (ms : List Move) : Prop :=
  ∀ a, .call a ∈ ms → a.booked = true ∧ a ≠ .record

section Runs

variable {s' s : Strategy β} {host : Host}

/-- Strategies that no call of a run can tell apart make the same run of it. -/
theorem sameRun_of_perform {ms : List Move}
    (hms : ∀ a, .call a ∈ ms → a.perform s' host = a.perform s host) (d : Desk β) :
    SameRun s' s host d ms := by
  induction ms generalizing d with
  | nil => exact ⟨rfl, rfl⟩
  | cons m ms ih =>
    have hrest := fun a ha => hms a (List.mem_cons_of_mem m ha)
    cases m with
    | call a =>
      have hanswer : d.answer s' host a = d.answer s host a := by
        unfold answer
        rw [hms a List.mem_cons_self]
      have hafter : d.after s' host (.call a) = d.after s host (.call a) := by
        unfold after turn given handed
        simp only [hanswer]
      unfold SameRun run endings
      rw [hafter, hanswer, (ih hrest _).1, (ih hrest _).2]
      exact ⟨rfl, rfl⟩
    | write memory => exact ih hrest _
    | switch thread => exact ih hrest _
    | claim thread => exact ih hrest _
    | retire thread => exact ih hrest _

end Runs

/-- A call whose demand is refused leaves everything as it was. -/
theorem after_refused {s : Strategy β} {host : Host} {d : Desk β} {a : Action}
    (hattempt : a.attempt = none) {x : Demand} (hx : a.demand s.maxAlign = some x)
    (hrefused : x.Refused s d.ledger.heap) :
    d.answer s host a = (.ok a.refusal, d.ledger) ∧ d.after s host (.call a) = d := by
  have hanswer : d.answer s host a = (.ok a.refusal, d.ledger) := by
    unfold answer
    rw [Action.perform_refused host hattempt hx hrefused]
  have hgone : a.gone (.ok a.refusal) = none := by
    unfold Action.gone
    rw [if_pos a.fails_refusal, Action.forfeit_of_demand hx]
  have hcame : Ending.came (.ok a.refusal) = none := by
    unfold Action.refusal
    split <;> rfl
  exact ⟨hanswer, after_still hanswer hgone hcame⟩

end Desk

namespace Stack

/-- No call asks the backend for more than the cap. -/
def Within (u : Stack β) (cap : Nat) (ms : List Desk.Move) : Prop :=
  ∀ a, .call a ∈ ms → ∀ x ∈ a.demand u.backend.maxAlign, u.sent x ≤ cap

variable (u : Stack β) (host : Host)

/-- At any desk over any backend, with every request that the backend sees written down. A reference
to the backend makes no difference to any run, and a cap at the largest word makes none to calls of
the ledger, its record apart, which names the backend. Any other cap makes none as long as nothing
beyond it would be sent. The first call that would send more reports that there is nothing, and that
is all that happens; the pointer of a block that it is to resize has to be one that can be sized.
Behind headers no pointer that is out ever costs more than the cap.

Questions to the backend change nothing, and are not written down. But they may be answered in any
way, after any requests, and also with a fault, so a question that is asked with a wrapper and not
without it, or the other way round, would make a difference. -/
theorem wrappers_transparent (d : Desk (Watched β))
    (size : Nat → Heap (Watched β) → Except Fault Nat) (report : Watched β → AllocatorInfo) :
    let w := u.watched.answering size report
    (∀ ms, Desk.SameRun w.borrowed.strategy w.strategy host d ms) ∧
      (∀ ms, Desk.Nameless ms → Desk.SameRun (w.capped Word.max).strategy w.strategy host d ms) ∧
      (∀ cap ms, Desk.Nameless ms → u.Within cap ms →
        let e := Desk.run w.strategy host d ms
        Desk.SameRun (w.capped cap).strategy w.strategy host d ms ∧
          ∀ a x, a.attempt = none → a.demand u.backend.maxAlign = some x → cap < u.sent x →
            (∀ p ∈ a.pointer?, ∃ n, w.strategy.footprint p e.ledger.heap = .ok n) →
            e.answer (w.capped cap).strategy host a = (.ok a.refusal, e.ledger) ∧
              e.after (w.capped cap).strategy host (.call a) = e) ∧
      ∀ (b : Backend β) (c : b.Contract Lease.Admits) (cap : Nat) (heap : Heap β) (slots : Nat)
        (ms : List Desk.Move), host.Confined → c.valid heap → (∀ q, c.live heap q = none) →
        let s := Strategy.headered (b.capped cap)
        let e := Desk.run s host (.opening heap slots) ms
        Desk.Lawful s host (.opening heap slots) ms →
        ∀ p ∈ e.live, ∃ n, Ledger.allocationSize s p e.ledger = .ok n e.ledger ∧ n ≤ cap := by
  intro w
  have hwatched : w.backend.maxAlign = u.backend.maxAlign :=
    (u.watched.maxAlign_answering size report).trans u.maxAlign_watched
  have hsent : ∀ x, w.sent x = u.sent x := fun x =>
    (u.watched.sent_answering size report x).trans (u.sent_watched x)
  have hmax : ∀ cap, (w.capped cap).strategy.maxAlign = u.backend.maxAlign := fun cap => by
    rw [(w.alike_capped cap).maxAlign, w.maxAlign_strategy, hwatched]
  have hpasses : ∀ {a : Action} {x : Demand}, a.demand u.backend.maxAlign = some x →
      x.Passes w.backend.maxAlign := by
    intro a x hx
    rw [hwatched]
    exact Action.passes_of_demand hx
  -- On what cannot be sent or is not beyond the cap the two strategies agree.
  have hbelow : ∀ cap ms, Desk.Nameless ms →
      (∀ a, .call a ∈ ms → ∀ x ∈ a.demand u.backend.maxAlign,
        u.sent x < Word.limit → u.sent x ≤ cap) →
      Desk.SameRun (w.capped cap).strategy w.strategy host d ms := by
    intro cap ms hcalls hfits
    apply Desk.sameRun_of_perform
    intro a ha
    apply Action.perform_congr (w.alike_capped cap) host (hcalls a ha).1 (hcalls a ha).2
    intro x hx
    rw [w.maxAlign_strategy, hwatched] at hx
    apply agree_capped (hpasses hx)
    rw [hsent]
    exact hfits a ha x hx
  refine ⟨?_, ?_, ?_, ?_⟩
  · intro ms
    rw [w.borrowed_eq]
    exact ⟨rfl, rfl⟩
  · intro ms hcalls
    apply hbelow Word.max ms hcalls
    intro a ha x hx hlimit
    exact Nat.le_sub_one_of_lt hlimit
  · intro cap ms hcalls hwithin e
    refine ⟨hbelow cap ms hcalls fun a ha x hx _ => hwithin a ha x hx, ?_⟩
    intro a x hattempt hx hcap hsized
    rw [← hsent] at hcap
    have hrefused : x.Refused (w.capped cap).strategy e.ledger.heap := by
      apply refused_capped (hpasses hx) hcap
      rintro p n rfl
      exact hsized p (Action.pointer_of_resize hx)
    apply Desk.after_refused hattempt ?_ hrefused
    rw [hmax]
    exact hx
  · intro b c cap heap slots ms hhost hheap hnone s e hms
    exact Desk.allocationSize_le_cap c cap hhost hheap hnone slots hms

/-- A cap of a hundred bytes in an arena: a block of sixteen bytes costs 32 of them. It is there
with the cap as without, and cannot be resized to two hundred. -/
theorem wrappers_transparent_arena :
    let b := (Arena.full {}).toBackend
    let w := (Stack.headered b).watched
    let d := Desk.openingWatched Desk.arenaHeap 4
    let ms : List Desk.Move := [.call (.alloc .attempt 16)]
    let a := Action.realloc .attempt (some (Arena.base + 16)) 200
    let e := Desk.run w.strategy .unsupported d ms
    Desk.run (w.capped 100).strategy .unsupported d ms = e ∧ e.live = {Arena.base + 16} ∧
      (e.answer (w.capped 100).strategy .unsupported a).1 = .ok (.failed (.exhausted 200)) ∧
      e.after (w.capped 100).strategy .unsupported (.call a) = e ∧
      ∃ n, Ledger.allocationSize (.headered (b.capped 100)) (Arena.base + 16)
        (Desk.run (.headered (b.capped 100)) .unsupported (.opening Desk.arenaHeap 4) ms).ledger =
          .ok n (Desk.run (.headered (b.capped 100)) .unsupported
            (.opening Desk.arenaHeap 4) ms).ledger ∧ n ≤ 100 := by
  intro b w d ms a e
  obtain ⟨-, -, hcapped, hcosts⟩ := wrappers_transparent (.headered b) .unsupported d
    (fun _ _ => .ok 0) b.watched.info
  have hnameless : Desk.Nameless ms := by
    intro x hx
    cases List.mem_singleton.1 hx
    exact ⟨rfl, fun h => nomatch h⟩
  have hwithin : (Stack.headered b).Within 100 ms := by
    intro x hx y hy
    cases List.mem_singleton.1 hx
    cases hy
    decide
  obtain ⟨hsame, hrefused⟩ := hcapped 100 ms hnameless hwithin
  have hsized : w.strategy.footprint (Arena.base + 16) e.ledger.heap = .ok 32 := by
    decide +kernel
  obtain ⟨hanswer, hafter⟩ := hrefused a (.resize (Arena.base + 16) 200) rfl rfl (by decide)
    fun p hp => by cases hp; exact ⟨32, hsized⟩
  have hlive : e.live = {Arena.base + 16} := by decide +kernel
  have hlawful : Desk.Lawful (.headered (b.capped 100)) .unsupported
      (.opening Desk.arenaHeap 4) ms := ⟨⟨rfl, fun p hp => nomatch hp⟩, trivial⟩
  refine ⟨hsame.1, hlive, congrArg Prod.fst hanswer, hafter, ?_⟩
  apply hcosts b (Arena.fullContract Arena.honest_default).toContract 100 Desk.arenaHeap 4 ms
    Host.confined_unsupported Desk.arenaHeap_valid (fun _ => rfl) hlawful
  decide +kernel

end Stack

end HeapLedger
