import Mathlib.Algebra.BigOperators.Group.Finset.Basic
import HeapLedger.Proofs.Handlers
import HeapLedger.Proofs.Isolation
import HeapLedger.Proofs.Ledger.Content
import HeapLedger.Proofs.Ledger.Foreseen
import HeapLedger.Proofs.Strategy.Zeros
import HeapLedger.Proofs.Traffic

/-!
# `HeapLedger/Proofs/Cloakroom.lean` — callers who know no addresses

At a cloakroom nobody sees a pointer. A caller who gets a block gets a ticket for it, tickets are
numbered as they are issued, and whoever wants something done about a block says the number. So a
list of errands means the same wherever the backend puts its blocks.

What is behind a ticket is known without looking: the header of its block, and the bytes that were
put there. `Cloakroom.Sound` says so, of all tickets that are out, and `Sound.called` says what one
more call makes of it. Up to the backend's one answer all of it is in the forecast.
-/

set_option autoImplicit false

namespace HeapLedger

variable {β : Type}

/-- What happens at a cloakroom. -/
inductive Errand where
  /-- A call, with tickets for pointers. -/
  | call (action : Action)
  /-- Bytes are written into the block behind a ticket. -/
  | write (ticket offset : Nat) (bytes : Array UInt8)
  | switch (thread : Nat)
  | claim (thread : Nat)
  | retire (thread : Nat)

/-- A desk, and the tickets for the pointers that are out. -/
structure Cloakroom (β : Type) where
  desk : Desk β
  /-- The pointer behind a ticket. -/
  tickets : Nat → Option Nat
  /-- The number of the next ticket. -/
  issued : Nat
  /-- The bytes that were put behind a ticket. -/
  known : Nat → Nat → Option UInt8

namespace Cloakroom

/-- A cloakroom over a heap where nothing has happened. -/
def opening (heap : Heap β) (slots : Nat) : Cloakroom β :=
  ⟨.opening heap slots, fun _ => none, 0, fun _ _ => none⟩

section Errands

variable (b : Backend β) (host : Host) (r : Cloakroom β)

def pointer (t : Nat) : Nat :=
  (r.tickets t).getD 0

/-- The backend's pointer behind a ticket. -/
def raw (c : b.Contract Lease.Admits) (t : Nat) : Nat :=
  (Adapter.headered b c).raw r.desk.ledger.heap (r.pointer t)

/-- What an errand comes to at the desk. -/
def move : Errand → Desk.Move
  | .call a => .call (a.redirect r.pointer)
  | .write t offset bytes => .write (r.desk.ledger.heap.memory.store (r.pointer t + offset) bytes)
  | .switch thread => .switch thread
  | .claim thread => .claim thread
  | .retire thread => .retire thread

/-- How a call ends. -/
def ending (a : Action) : Ending :=
  (r.desk.answer (.headered b) host (a.redirect r.pointer)).1

/-- What was put into the block that a call is about. -/
def content (a : Action) : Nat → Option UInt8 :=
  a.pointer?.elim (fun _ => none) r.known

/-- What is known of a block into which bytes are written. -/
def written (offset : Nat) (bytes : Array UInt8) (known : Nat → Option UInt8) (i : Nat) :
    Option UInt8 :=
  if offset ≤ i ∧ i < offset + bytes.size then some (bytes.getD (i - offset) 0) else known i

/-- The cloakroom after an errand. -/
def after (e : Errand) : Cloakroom β :=
  let desk := r.desk.after (.headered b) host (r.move e)
  match e with
  | .call a =>
      { desk := desk
        tickets := exchange r.tickets (a.gone (r.ending b host a))
          ((r.ending b host a).came.map (r.issued, ·))
        issued := r.issued + 1
        known := Function.update r.known r.issued (a.content b.maxAlign (r.content a)) }
  | .write t offset bytes =>
      { r with
        desk := desk
        known := Function.update r.known t (written offset bytes (r.known t)) }
  | _ => { r with desk := desk }

/-- What the backend gets to see of an errand. -/
def sightings : Errand → List (Sighting β)
  | .call a => (Stack.headered b).sightings host (a.redirect r.pointer) r.desk.ledger
  | _ => []

/-- The requests that an errand makes of the backend, in order. -/
def asks : Errand → List Request
  | .call a => (Stack.headered b).asks host (a.redirect r.pointer) r.desk.ledger
  | _ => []

/-- The backend's answers to the requests for memory that an errand makes. -/
def verdicts (e : Errand) : List Bool :=
  (r.sightings b host e).filterMap (Sighting.verdict b)

/-- The errand keeps to the rules: tickets that are shown are out, a layout that is passed with one
fits its block, and bytes that are written are usable. No pages are offered to the host. -/
def Allows : Errand → Prop
  | .call a => a.booked = true ∧ (∀ ptr hint, a ≠ .adviseUnused ptr hint) ∧
      (∀ t ∈ a.pointer?, (r.tickets t).isSome) ∧
      ∀ t layout size, a = .layoutRealloc (some t) layout size →
        ∃ usable, (Strategy.headered b).usableSize (r.pointer t) r.desk.ledger.heap = .ok usable ∧
          layout.size ≤ usable
  | .write t offset bytes => (r.tickets t).isSome ∧
      ∃ usable, (Strategy.headered b).usableSize (r.pointer t) r.desk.ledger.heap = .ok usable ∧
        offset + bytes.size ≤ usable
  | _ => True

def Lawful : Cloakroom β → List Errand → Prop
  | _, [] => True
  | r, e :: es => r.Allows b e ∧ Lawful (r.after b host e) es

/-- All answers of the backend to requests for memory, in order. -/
def allVerdicts : Cloakroom β → List Errand → List Bool
  | _, [] => []
  | r, e :: es => r.verdicts b host e ++ allVerdicts (r.after b host e) es

end Errands

/-! ## What is behind tickets -/

open Strategy.Headered (width custody Found)

variable {b : Backend β} {c : b.Contract Lease.Admits} {host : Host} {hs : Holdings}
  {headers : Nat → Option Header} {r : Cloakroom β} {t u p : Nat} {x : Header}

/-- Behind the ticket is a block with this header, which holds what was put there. -/
def Behind (b : Backend β) (hs : Holdings) (r : Cloakroom β) (t : Nat) (x : Header) : Prop :=
  ∃ p d, r.tickets t = some p ∧ hs p = some d ∧ d.usable = x.size ∧
    d.footprint = Header.cost (width b) x ∧ d.Shows p (r.known t) r.desk.ledger.heap.memory

/-- Every pointer that is out has one ticket, and `headers` are those of the blocks behind them. -/
structure Sound (c : b.Contract Lease.Admits) (hs : Holdings) (headers : Nat → Option Header)
    (r : Cloakroom β) : Prop where
  keeps : Desk.Keeps (Desk.headed c).toCustody hs r.desk
  behind : ∀ t x, headers t = some x → Behind b hs r t x
  taken : ∀ t, (r.tickets t).isSome = (headers t).isSome
  blank : ∀ t, r.issued ≤ t → headers t = none
  once : ∀ t u p, r.tickets t = some p → r.tickets u = some p → t = u
  out : ∀ p ∈ r.desk.live, ∃ t, r.tickets t = some p

theorem pointer_of_ticket (h : r.tickets t = some p) : r.pointer t = p := by
  unfold pointer
  rw [h]
  rfl

theorem sound_opening {heap : Heap β} (hheap : c.valid heap) (slots : Nat) :
    Sound c (fun _ => none) (fun _ => none) (opening heap slots) where
  keeps := Desk.keeps_opening hheap slots
  behind := fun _ _ hx => nomatch hx
  taken := fun _ => rfl
  blank := fun _ _ => rfl
  once := fun _ _ _ ht => nomatch ht
  out := fun p hp => absurd hp (Finset.notMem_empty p)

namespace Sound

variable (h : Sound c hs headers r)

include h

theorem header (ht : r.tickets t = some p) :
    ∃ x d, headers t = some x ∧ hs p = some d ∧ d.usable = x.size ∧
      d.footprint = Header.cost (width b) x ∧ d.Shows p (r.known t) r.desk.ledger.heap.memory := by
  have hsome : (headers t).isSome := by
    rw [← h.taken, ht]
    rfl
  obtain ⟨x, hx⟩ := Option.isSome_iff_exists.1 hsome
  obtain ⟨q, d, hq, hd⟩ := h.behind t x hx
  obtain rfl : p = q := Option.some.inj (ht.symm.trans hq)
  exact ⟨x, d, hx, hd⟩

theorem ticket_lt (ht : r.tickets t = some p) : t < r.issued := by
  obtain ⟨x, -, hx, -⟩ := h.header ht
  apply Nat.lt_of_not_le
  intro hle
  rw [h.blank t hle] at hx
  cases hx

theorem live (ht : r.tickets t = some p) : p ∈ r.desk.live := by
  obtain ⟨x, d, -, hd, -⟩ := h.header ht
  rw [h.keeps.live, hd]
  rfl

/-- The header is there to be read. -/
theorem found (ht : r.tickets t = some p) (hx : headers t = some x) :
    ∃ d, hs p = some d ∧ (custody c).stands p d r.desk.ledger.heap ∧
      Found b c.toSurvey p d r.desk.ledger.heap x := by
  obtain ⟨y, d, hy, hd, husable, hcost, -⟩ := h.header ht
  obtain rfl : x = y := Option.some.inj (hx.symm.trans hy)
  have hstands := h.keeps.sound.holds.stands p d hd
  obtain ⟨y, hf⟩ := Strategy.Headered.found h.keeps.sound.holds.valid hstands
  obtain rfl : x = y :=
    Header.eq_of_cost_eq (husable.symm.trans hf.usable) (hcost.symm.trans hf.booked)
  exact ⟨d, hd, hstands, hf⟩

/-- The sizes of a block can be told from its header. -/
theorem sizes (hx : headers t = some x) :
    (Strategy.headered b).usableSize (r.pointer t) r.desk.ledger.heap = .ok x.size ∧
      (Strategy.headered b).footprint (r.pointer t) r.desk.ledger.heap =
        .ok (Header.cost (width b) x) := by
  obtain ⟨p, -, ht, -⟩ := h.behind t x hx
  obtain ⟨d, -, hstands, hf⟩ := h.found ht hx
  have hvalid := h.keeps.sound.holds.valid
  rw [pointer_of_ticket ht]
  refine ⟨?_, ?_⟩
  · rw [← hf.usable]
    exact (Desk.headed c).usableSize hvalid hstands
  · rw [← hf.booked]
    exact (Desk.headed c).footprint hvalid hstands

theorem raw_eq {d : Holding} (ht : r.tickets t = some p) (hd : hs p = some d) :
    r.raw b c t = d.start := by
  unfold raw
  rw [pointer_of_ticket ht]
  exact (Adapter.headered b c).raw_of_stands h.keeps.sound.holds.valid
    (h.keeps.sound.holds.stands p d hd)

/-- No two tickets are for one block. -/
theorem raw_injOn : Set.InjOn (r.raw b c) {t | (r.tickets t).isSome} := by
  intro t ht u hu hraw
  obtain ⟨p, hp⟩ := Option.isSome_iff_exists.1 ht
  obtain ⟨q, hq⟩ := Option.isSome_iff_exists.1 hu
  obtain ⟨-, d, -, hd, -⟩ := h.header hp
  obtain ⟨-, e, -, he, -⟩ := h.header hq
  rw [h.raw_eq hp hd, h.raw_eq hq he] at hraw
  obtain rfl := h.keeps.sound.holds.distinct p q d e hd he hraw
  exact h.once t u p hp hq

/-- The count is the sum of what the headers say, and no pointer comes in. -/
theorem used : r.desk.ledger.usedMemory = UInt64.ofNat
    (∑ t ∈ Finset.range r.issued, ((headers t).map (Header.cost (width b))).getD 0) := by
  have hcost : ∀ t ∈ Finset.range r.issued,
      ((headers t).map (Header.cost (width b))).getD 0 ≠ 0 → (r.tickets t).isSome := by
    intro t _ hne
    rw [h.taken]
    cases hx : headers t with
    | none =>
      rw [hx] at hne
      exact absurd rfl hne
    | some x => rfl
  have hticket : ∀ {t}, t ∈ Finset.range r.issued ∧ (r.tickets t).isSome →
      r.tickets t = some (r.pointer t) := by
    intro t ht
    obtain ⟨p, hp⟩ := Option.isSome_iff_exists.1 ht.2
    rw [pointer_of_ticket hp]
    exact hp
  rw [h.keeps.used, ← Finset.sum_filter_of_ne hcost]
  apply congrArg UInt64.ofNat
  symm
  apply Finset.sum_nbij r.pointer
  · intro t ht
    exact h.live (hticket (Finset.mem_filter.1 ht))
  · intro t ht u hu hpointer
    have hu' := hticket (Finset.mem_filter.1 hu)
    rw [← hpointer] at hu'
    exact h.once t u _ (hticket (Finset.mem_filter.1 ht)) hu'
  · intro p hp
    obtain ⟨t, ht⟩ := h.out p hp
    refine ⟨t, Finset.mem_filter.2 ⟨Finset.mem_range.2 (h.ticket_lt ht), ?_⟩,
      pointer_of_ticket ht⟩
    rw [ht]
    rfl
  · intro t ht
    obtain ⟨x, d, hx, hd, -, hcost, -⟩ := h.header (hticket (Finset.mem_filter.1 ht))
    rw [Holdings.cost, hd, hx]
    exact hcost.symm

end Sound

/-! ## Tickets that are exchanged -/

/-- Only the next number is issued. -/
theorem eq_of_issued {α : Type} {n t : Nat} {ptr : Option Nat} {v : Nat → α}
    (h : (ptr.map fun p => (n, v p)).map Prod.fst = some t) : t = n := by
  obtain ⟨⟨u, w⟩, hu, rfl⟩ := Option.map_eq_some_iff.1 h
  obtain ⟨p, -, hpair⟩ := Option.map_eq_some_iff.1 hu
  cases hpair
  rfl

/-- A ticket is the one that was issued, for the pointer that came, or one that stays. -/
theorem ticket_exchanged {gone came : Option Nat}
    (ht : exchange r.tickets gone (came.map (r.issued, ·)) t = some p) :
    t = r.issued ∧ came = some p ∨ gone ≠ some t ∧ r.tickets t = some p := by
  rcases exchange_eq_some ht with hnew | hold
  · obtain ⟨q, hq, hpair⟩ := Option.map_eq_some_iff.1 hnew
    cases hpair
    exact .inl ⟨rfl, hq⟩
  · exact .inr hold

theorem Sound.ticket_stays (h : Sound c hs headers r) {gone came : Option Nat}
    (ht : r.tickets t = some p) (hne : gone ≠ some t) :
    exchange r.tickets gone (came.map (r.issued, ·)) t = some p := by
  rw [exchange_of_ne hne, ht]
  exact fun hissued => Nat.ne_of_lt (h.ticket_lt ht) (eq_of_issued hissued)

section Exchanged

variable (h : Sound c hs headers r) {gone : Option Nat} {came : Option (Nat × Holding)}
  {l : Ledger β} (hgone : ∀ t ∈ gone, (r.tickets t).isSome)
  (hpost : Ledger.Posts (Desk.headed c).toCustody hs (gone.map r.pointer) came r.desk.ledger l)

include h hgone

/-- The pointer of a ticket that stays is not the one that goes. -/
theorem Sound.pointer_ne (ht : r.tickets t = some p) (hne : gone ≠ some t) :
    gone.map r.pointer ≠ some p := by
  intro hp
  obtain ⟨u, rfl, hu⟩ := Option.map_eq_some_iff.1 hp
  obtain ⟨q, hq⟩ := Option.isSome_iff_exists.1 (hgone u rfl)
  rw [pointer_of_ticket hq] at hu
  rw [hu] at hq
  exact hne (congrArg some (h.once u t p hq ht))

include hpost

/-- A pointer that comes was nobody's before. -/
theorem Sound.ticket_ne (hp : came.map Prod.fst = some p) (hne : gone ≠ some t) :
    r.tickets t ≠ some p := by
  intro ht
  obtain ⟨⟨q, d⟩, rfl, rfl⟩ := Option.map_eq_some_iff.1 hp
  obtain ⟨-, e, -, he, -⟩ := h.header ht
  rw [hpost.deal.fresh q d rfl (h.pointer_ne hgone ht hne)] at he
  cases he

/-- What is behind a ticket that stays is left alone. -/
theorem Sound.shows_kept {d : Holding} {known : Nat → Option UInt8} (ht : r.tickets t = some p)
    (hne : gone ≠ some t) (hd : hs p = some d)
    (hshow : d.Shows p known r.desk.ledger.heap.memory) : d.Shows p known l.heap.memory := by
  have hholds := h.keeps.sound.holds
  refine ⟨fun i v hi => ?_, hshow.2⟩
  obtain ⟨_, hlo, hhi⟩ := hholds.inside hd
  have hin : i < d.usable := hshow.2 i (by rw [hi]; rfl)
  rw [hpost.deal.kept hholds hd (h.pointer_ne hgone ht hne) (p + i) (by omega) (by omega)]
  exact hshow.1 i v hi

/-- One ticket is taken back, if any, and one is issued, if any. -/
theorem Sound.exchanged {y : Header} {known : Nat → Option UInt8}
    (hcame : ∀ q d, came = some (q, d) → d.usable = y.size ∧
      d.footprint = Header.cost (width b) y ∧ d.Shows q known l.heap.memory) :
    Sound c (exchange hs (gone.map r.pointer) came)
      (exchange headers gone ((came.map Prod.fst).map fun _ => (r.issued, y)))
      { desk := ⟨l, (r.desk.live \ (gone.map r.pointer).toFinset) ∪ (came.map Prod.fst).toFinset⟩
        tickets := exchange r.tickets gone ((came.map Prod.fst).map (r.issued, ·))
        issued := r.issued + 1
        known := Function.update r.known r.issued known } := by
  refine ⟨?_, ?_, ?_, ?_, ?_, ?_⟩
  · apply h.keeps.posted ?_ hpost
    intro p hp
    obtain ⟨t, ht, rfl⟩ := Option.map_eq_some_iff.1 hp
    obtain ⟨q, hq⟩ := Option.isSome_iff_exists.1 (hgone t ht)
    rw [pointer_of_ticket hq]
    exact h.live hq
  · intro t x hx
    rcases exchange_eq_some hx with hnew | ⟨hne, hx⟩
    · obtain ⟨q, hq, hpair⟩ := Option.map_eq_some_iff.1 hnew
      cases hpair
      obtain ⟨⟨q, d⟩, rfl, rfl⟩ := Option.map_eq_some_iff.1 hq
      obtain ⟨husable, hcost, hshows⟩ := hcame q d rfl
      refine ⟨q, d, exchange_came, exchange_came, husable, hcost, ?_⟩
      simp only [Function.update_self]
      exact hshows
    · obtain ⟨p, d, ht, hd, husable, hcost, hshows⟩ := h.behind t x hx
      refine ⟨p, d, h.ticket_stays ht hne, ?_, husable, hcost, ?_⟩
      · rw [Desk.exchange_kept hpost.deal.fresh _ (h.pointer_ne hgone ht hne), hd]
        rw [hd]
        rfl
      · simp only [Function.update_of_ne (Nat.ne_of_lt (h.ticket_lt ht))]
        exact h.shows_kept hgone hpost ht hne hd hshows
  · apply isSome_exchange h.taken
    cases came <;> rfl
  · intro t ht
    apply exchange_eq_none
    · intro hissued
      rw [eq_of_issued hissued] at ht
      exact Nat.not_succ_le_self _ ht
    · exact h.blank t (Nat.le_of_succ_le ht)
  · intro t u p ht hu
    rcases ticket_exchanged ht with ⟨rfl, hp⟩ | ⟨hst, ht⟩
    · rcases ticket_exchanged hu with ⟨rfl, -⟩ | ⟨hsu, hu⟩
      · rfl
      · exact absurd hu (h.ticket_ne hgone hpost hp hsu)
    · rcases ticket_exchanged hu with ⟨rfl, hp⟩ | ⟨-, hu⟩
      · exact absurd ht (h.ticket_ne hgone hpost hp hst)
      · exact h.once t u p ht hu
  · intro p hp
    rcases Finset.mem_union.1 hp with hp | hp
    · obtain ⟨hp, hne⟩ := Desk.mem_kept.1 hp
      obtain ⟨t, ht⟩ := h.out p hp
      refine ⟨t, h.ticket_stays ht ?_⟩
      rintro rfl
      exact hne (congrArg some (pointer_of_ticket ht))
    · obtain ⟨⟨q, d⟩, rfl, rfl⟩ := Option.map_eq_some_iff.1 (Option.mem_toFinset.1 hp)
      exact ⟨r.issued, exchange_came⟩

end Exchanged

/-! ## Calls -/

/-- The header of the block that a call is about, if it is about one. -/
def shown (headers : Nat → Option Header) (a : Action) : Header :=
  (a.pointer?.bind headers).getD ⟨0, 0⟩

/-- A call has come to its forecast, with this answer of the backend. -/
structure Called (c : b.Contract Lease.Admits) (host : Host) (headers : Nat → Option Header)
    (r : Cloakroom β) (a : Action) (granted : Bool) (f : Forecast) : Prop where
  ending : (r.ending b host a).veiled = f.ending
  asks : r.asks b host (.call a) = f.requests.map (Request.redirect (r.raw b c))
  verdicts : r.verdicts b host (.call a) = a.verdicts b.maxAlign granted
  fits : granted = true → a.verdicts b.maxAlign true = [true]
  sound : ∃ hs, Sound c hs (exchange headers (a.gone (r.ending b host a))
    ((r.ending b host a).came.map fun _ => (r.issued, f.came.getD ⟨0, 0⟩)))
      (r.after b host (.call a))

variable {a : Action}

theorem Sound.backed (h : Sound c hs headers r) (ha : ∀ t ∈ a.pointer?, (r.tickets t).isSome) :
    Backed c.watched ((Adapter.headered b c).raw r.desk.ledger.heap) (shown headers a)
      (a.redirect r.pointer).pointer? r.desk.ledger.watched.heap := by
  intro p hp
  rw [Action.pointer_redirect] at hp
  obtain ⟨t, ht, rfl⟩ := Option.map_eq_some_iff.1 hp
  obtain ⟨p, hticket⟩ := Option.isSome_iff_exists.1 (ha t ht)
  obtain ⟨x, -, hx, -⟩ := h.header hticket
  obtain ⟨d, hd, hstands, hf⟩ := h.found hticket hx
  have hshown : shown headers a = x := by
    unfold shown
    rw [ht, Option.bind_some, hx]
    rfl
  rw [pointer_of_ticket hticket, hshown]
  refine ⟨d, hstands, ⟨hf.stamped, hf.read, hf.start, hf.booked, hf.fits, hf.cost, hf.live,
    hf.usable, hf.asked⟩, ?_⟩
  exact (Adapter.headered b c).raw_of_stands h.keeps.sound.holds.valid hstands

theorem Sound.allows (h : Sound c hs headers r) (ha : r.Allows b (.call a)) :
    r.desk.Allows (.headered b) (.call (a.redirect r.pointer)) := by
  refine ⟨(a.booked_redirect r.pointer).trans ha.1, fun p hp => ?_⟩
  rw [Action.pointer_redirect] at hp
  obtain ⟨t, ht, rfl⟩ := Option.map_eq_some_iff.1 hp
  obtain ⟨p, hticket⟩ := Option.isSome_iff_exists.1 (ha.2.2.1 t ht)
  rw [pointer_of_ticket hticket]
  exact h.live hticket

/-- Watched or not, a call ends the same, and what was written down meanwhile is what there is to be
seen of it. -/
theorem watched_call (host : Host) (r : Cloakroom β) (a : Action) :
    let w := Action.settled ((a.redirect r.pointer).perform (.headered b.watched) host
      r.desk.ledger.watched)
    r.desk.answer (.headered b) host (a.redirect r.pointer) = (w.1, w.2.unwatched) ∧
      r.sightings b host (.call a) = w.2.heap.state.seen.reverse := by
  intro w
  refine ⟨?_, ?_⟩
  · exact Desk.unwatched_answer (Strategy.imitates_headered b) host
      ⟨r.desk.ledger.watched, r.desk.live⟩ (a.redirect r.pointer)
  · exact Stack.sightings_settled (.headered b) host (a.redirect r.pointer) r.desk.ledger

theorem Sound.filled (h : Sound c hs headers r) (hp : c.Preserves Lease.asked) (hz : c.Zeroes)
    (ha : r.Allows b (.call a)) :
    a.Fills b.maxAlign (r.content a) (r.ending b host a)
      (r.desk.answer (.headered b) host (a.redirect r.pointer)).2 := by
  have hpreserves : (Desk.headed c).Preserves :=
    Adapter.contract_preserves (a := .headered b c) hp
  have hzeroes : (Desk.headed c).Zeroes :=
    Strategy.headeredContract_zeroes (fun _ => Lease.admits_asked) hz
  have hshown : (a.redirect r.pointer).Shown (Desk.headed c) hs (r.content a) r.desk.ledger := by
    refine ⟨h.keeps.sound, fun p hp => ?_⟩
    rw [Action.pointer_redirect] at hp
    obtain ⟨t, ht, rfl⟩ := Option.map_eq_some_iff.1 hp
    obtain ⟨p, hticket⟩ := Option.isSome_iff_exists.1 (ha.2.2.1 t ht)
    obtain ⟨x, d, hx, hd, husable, -, hshows⟩ := h.header hticket
    have hcontent : r.content a = r.known t := by
      unfold content
      rw [ht]
      rfl
    rw [pointer_of_ticket hticket, hcontent]
    refine ⟨d, hd, hshows, fun layout size hlayout => ?_⟩
    have hcall : a = .layoutRealloc (some t) layout size := by
      cases a with
      | layoutRealloc ptr l n =>
        obtain rfl : ptr = some t := ht
        cases hlayout
        rfl
      | _ => cases hlayout
    obtain ⟨usable, hread, hle⟩ := ha.2.2.2 t layout size hcall
    rw [(h.sizes hx).1] at hread
    cases hread
    rw [husable]
    exact hle
  have hfills : (a.redirect r.pointer).Fills b.maxAlign (r.content a) (r.ending b host a)
      (r.desk.answer (.headered b) host (a.redirect r.pointer)).2 :=
    Action.perform_fills hpreserves hzeroes hshown
  intro q hq i v hi
  apply hfills q hq i v
  rw [Action.content_redirect]
  exact hi

/-- The pointer that a call hands out gets the next ticket, and the header behind it is the one that
was foreseen. -/
theorem Sound.answered (h : Sound c hs headers r) (hhost : host.Confined)
    (ha : r.Allows b (.call a)) {y : Header}
    (hcame : ∀ q ∈ (r.ending b host a).came, Header.read
      (r.desk.answer (.headered b) host (a.redirect r.pointer)).2.heap.memory q = .ok y ∧
        ∀ i, (a.content b.maxAlign (r.content a) i).isSome → i < y.size)
    (hfills : a.Fills b.maxAlign (r.content a) (r.ending b host a)
      (r.desk.answer (.headered b) host (a.redirect r.pointer)).2) :
    ∃ hs, Sound c hs (exchange headers (a.gone (r.ending b host a))
      ((r.ending b host a).came.map fun _ => (r.issued, y))) (r.after b host (.call a)) := by
  have houtcome := Desk.answer_outcome (h.keeps.comes hhost (h.allows ha))
  have hgone : (a.redirect r.pointer).gone (r.ending b host a) =
      (a.gone (r.ending b host a)).map r.pointer := a.gone_redirect r.pointer _
  have hafter : r.after b host (.call a) =
      { desk := ⟨(r.desk.answer (.headered b) host (a.redirect r.pointer)).2,
          (r.desk.live \ ((a.gone (r.ending b host a)).map r.pointer).toFinset) ∪
            (r.ending b host a).came.toFinset⟩
        tickets := exchange r.tickets (a.gone (r.ending b host a))
          ((r.ending b host a).came.map (r.issued, ·))
        issued := r.issued + 1
        known := Function.update r.known r.issued (a.content b.maxAlign (r.content a)) } := by
    rw [← hgone]
    rfl
  rw [hafter]
  unfold ending at *
  generalize r.desk.answer (.headered b) host (a.redirect r.pointer) = result at *
  obtain ⟨e, l⟩ := result
  cases houtcome with
  | posted came hanswers hpost =>
    have hout : ∀ t ∈ a.gone e, (r.tickets t).isSome := fun t ht =>
      ha.2.2.1 t (Action.pointer_of_gone ht)
    rw [hgone] at hpost
    show ∃ hs, Sound c hs (exchange headers (a.gone e) (e.came.map fun _ => (r.issued, y))) _
    rw [← hanswers.1]
    refine ⟨_, h.exchanged hout hpost ?_⟩
    rintro q d rfl
    have hq : e.came = some q := hanswers.1.symm
    obtain ⟨hread, hlt⟩ := hcame q hq
    obtain ⟨x, hf⟩ := Strategy.Headered.found hpost.deal.holds.valid
      (hpost.deal.holds.stands q d exchange_came)
    obtain rfl : x = y := Except.ok.inj (hf.read.symm.trans hread)
    refine ⟨hf.usable, hf.booked, hfills q hq, ?_⟩
    rw [hf.usable]
    exact hlt
  | advised haction =>
    cases a with
    | adviseUnused ptr hint => exact absurd rfl (ha.2.1 ptr hint)
    | _ => cases haction
  | astray hforfeit hastray => exact absurd trivial hastray.honours

/-- What comes of a call is in the forecast, but for the backend's answer. -/
theorem Sound.called (h : Sound c hs headers r) (hp : c.Preserves Lease.asked) (hz : c.Zeroes)
    (hhost : host.Confined) (ha : r.Allows b (.call a)) :
    ∃ granted, Called c host headers r a granted
      (a.forecast b.maxAlign (shown headers a) r.desk.ledger.policy.current granted) := by
  have hadvise : ∀ ptr hint, a.redirect r.pointer ≠ .adviseUnused ptr hint := by
    intro ptr hint hredirect
    cases a with
    | adviseUnused ptr hint => exact ha.2.1 ptr hint rfl
    | _ => cases hredirect
  have hvalid : c.watched.valid r.desk.ledger.watched.heap :=
    ⟨h.keeps.sound.holds.valid, fun _ hs => nomatch hs⟩
  obtain ⟨hanswer, hseen⟩ := watched_call (b := b) host r a
  have hforetold := Action.perform_foretold host (fun _ => Lease.admits_asked) hvalid
    (h.backed ha.2.2.1) ((a.booked_redirect r.pointer).trans ha.1) hadvise
  obtain ⟨granted, hforetold⟩ := hforetold
  rw [Action.forecast_redirect] at hforetold
  refine ⟨granted, ?_⟩
  have hending : r.ending b host a = _ := congrArg Prod.fst hanswer
  obtain ⟨news, hnews, hrequests, hverdicts⟩ := hforetold.wrote
  have hsightings : r.sightings b host (.call a) = news := by
    rw [hseen, hnews]
    show (news.reverse ++ []).reverse = news
    rw [List.append_nil, List.reverse_reverse]
  have hasks : r.asks b host (.call a) = news.map Sighting.request := by
    rw [← hsightings]
    exact Stack.asks_eq_sightings _ _ _ _
  refine ⟨?_, ?_, ?_, ?_, ?_⟩
  · rw [hending]
    exact hforetold.ending
  · rw [hasks, hrequests, List.map_map]
    exact List.map_congr_left fun q _ => q.redirect_redirect r.pointer _
  · unfold verdicts
    rw [hsightings, hverdicts, Action.verdicts_redirect]
  · intro hgranted
    rw [← a.verdicts_redirect r.pointer]
    exact hforetold.fits hgranted
  · apply h.answered hhost ha ?_ (h.filled hp hz ha)
    intro q hq
    rw [hending] at hq
    obtain ⟨y, gone, d, hy, harrived⟩ := hforetold.came q hq
    have hcame : (a.forecast b.maxAlign (shown headers a) r.desk.ledger.policy.current
      granted).came = some y := hy
    obtain ⟨z, hz, rfl⟩ := Action.demand_of_forecast hcame
    rw [hanswer, hcame, Option.getD_some, z.size_header]
    refine ⟨harrived.found.read, fun i hi => ?_⟩
    obtain ⟨v, hv⟩ := Option.isSome_iff_exists.1 hi
    exact Action.content_lt hz hv

theorem handler_called (b : Backend β) (host : Host) (r : Cloakroom β) (a : Action) :
    (r.after b host (.call a)).desk.ledger.policy.current =
      a.installs.getD r.desk.ledger.policy.current := by
  have hinstalls : (a.redirect r.pointer).installs = a.installs := by
    cases a <;> rfl
  rw [← hinstalls]
  exact Desk.policy_answer (.headered b) host r.desk (a.redirect r.pointer)

/-! ## Other errands -/

/-- What is behind tickets stays behind them where no pointer comes or goes. -/
theorem Sound.kept (h : Sound c hs headers r) {r' : Cloakroom β} {hs' : Holdings}
    (hk : Desk.Keeps (Desk.headed c).toCustody hs' r'.desk)
    (hsame : ∀ p ∈ r.desk.live, hs' p = hs p) (hlive : r'.desk.live = r.desk.live)
    (htickets : r'.tickets = r.tickets) (hissued : r'.issued = r.issued)
    (hshows : ∀ t p d, r.tickets t = some p → hs p = some d →
      d.Shows p (r.known t) r.desk.ledger.heap.memory →
        d.Shows p (r'.known t) r'.desk.ledger.heap.memory) : Sound c hs' headers r' where
  keeps := hk
  behind := by
    intro t x hx
    obtain ⟨p, d, ht, hd, husable, hcost, hshow⟩ := h.behind t x hx
    refine ⟨p, d, ?_, ?_, husable, hcost, hshows t p d ht hd hshow⟩
    · rw [htickets]
      exact ht
    · rw [hsame p (h.live ht)]
      exact hd
  taken := by
    rw [htickets]
    exact h.taken
  blank := by
    rw [hissued]
    exact h.blank
  once := by
    rw [htickets]
    exact h.once
  out := by
    rw [hlive, htickets]
    exact h.out

/-- Bytes that are written are known from then on. -/
theorem shows_written {d : Holding} {known : Nat → Option UInt8} {m : Memory} {offset : Nat}
    {bytes : Array UInt8} (hshow : d.Shows p known m) (hle : offset + bytes.size ≤ d.usable) :
    d.Shows p (written offset bytes known) (m.store (p + offset) bytes) := by
  refine ⟨fun i v hi => ?_, fun i hi => ?_⟩
  · unfold written at hi
    rw [Memory.byte_store]
    split at hi
    · cases hi
      rw [if_pos (by omega), show p + i - (p + offset) = i - offset by omega]
    · rw [if_neg (by omega)]
      exact hshow.1 i v hi
  · unfold written at hi
    split at hi
    · omega
    · exact hshow.2 i hi

/-- What is behind one ticket is not touched by what is written behind another. -/
theorem Sound.shows_write (h : Sound c hs headers r) {offset : Nat} {bytes : Array UInt8}
    (ha : r.Allows b (.write t offset bytes)) {q : Nat} {e : Holding} (hu : r.tickets u = some q)
    (he : hs q = some e) (hshow : e.Shows q (r.known u) r.desk.ledger.heap.memory) :
    e.Shows q ((r.after b host (.write t offset bytes)).known u)
      (r.desk.ledger.heap.memory.store (r.pointer t + offset) bytes) := by
  obtain ⟨hout, usable, hread, hle⟩ := ha
  obtain ⟨p, ht⟩ := Option.isSome_iff_exists.1 hout
  obtain ⟨x, d, hx, hd, husable, -⟩ := h.header ht
  rw [(h.sizes hx).1] at hread
  cases hread
  rw [pointer_of_ticket ht]
  show e.Shows q (Function.update r.known t (written offset bytes (r.known t)) u) _
  by_cases hut : u = t
  · subst hut
    obtain rfl : p = q := Option.some.inj (ht.symm.trans hu)
    obtain rfl : d = e := Option.some.inj (hd.symm.trans he)
    rw [Function.update_self]
    apply shows_written hshow
    rw [husable]
    exact hle
  · have hpq : p ≠ q := by
      rintro rfl
      exact hut (h.once u t p hu ht)
    have hpin := h.keeps.sound.holds.inside hd
    have hqin := h.keeps.sound.holds.inside he
    have hapart := h.keeps.sound.holds.apart hd he hpq
    rw [Function.update_of_ne hut]
    refine ⟨fun i v hi => ?_, hshow.2⟩
    have hin := hshow.2 i (by rw [hi]; rfl)
    rw [Memory.byte_store, if_neg (by omega)]
    exact hshow.1 i v hi

/-- Errands that are no calls leave everything behind the tickets, and the handler too. -/
theorem Sound.moved (h : Sound c hs headers r) (hhost : host.Confined) {e : Errand}
    (hcall : ∀ a, e ≠ .call a) (ha : r.Allows b e) :
    (∃ hs, Sound c hs headers (r.after b host e)) ∧
      (r.after b host e).desk.ledger.policy = r.desk.ledger.policy := by
  have hstill : ∀ m : Desk.Move, r.desk.given (.headered b) host m = none →
      r.desk.handed (.headered b) host m = none →
      (r.desk.after (.headered b) host m).live = r.desk.live := by
    intro m hgiven hhanded
    unfold Desk.after
    rw [hgiven, hhanded]
    simp
  have hquiet : ∀ m : Desk.Move, r.desk.Allows (.headered b) m →
      r.desk.given (.headered b) host m = none → r.desk.handed (.headered b) host m = none →
      ∃ hs', Desk.Keeps (Desk.headed c).toCustody hs' (r.desk.after (.headered b) host m) ∧
        ∀ p ∈ r.desk.live, hs' p = hs p := by
    intro m hm hgiven hhanded
    obtain ⟨hs', hk⟩ := h.keeps.after hhost hm
    refine ⟨hs', hk.keeps, fun p hp => hk.same p hp ?_⟩
    rw [hgiven]
    exact fun hnone => nomatch hnone
  cases e with
  | call a => exact absurd rfl (hcall a)
  | write t offset bytes =>
    refine ⟨?_, rfl⟩
    have hm : r.desk.Allows (.headered b) (r.move (.write t offset bytes)) := by
      obtain ⟨hout, usable, hread, hle⟩ := ha
      obtain ⟨p, ht⟩ := Option.isSome_iff_exists.1 hout
      intro x hx
      have hchanged := Memory.changed_store hx
      refine ⟨r.pointer t, ?_, usable, hread, by omega, by omega⟩
      rw [pointer_of_ticket ht]
      exact h.live ht
    obtain ⟨hs', hk, hsame⟩ := hquiet _ hm rfl rfl
    exact ⟨hs', h.kept hk hsame (hstill _ rfl rfl) rfl rfl fun u q e hu he hshow =>
      h.shows_write ha hu he hshow⟩
  | switch thread =>
    obtain ⟨hs', hk, hsame⟩ := hquiet (.switch thread) trivial rfl rfl
    exact ⟨⟨hs', h.kept hk hsame (hstill _ rfl rfl) rfl rfl fun _ _ _ _ _ => id⟩, rfl⟩
  | claim thread =>
    obtain ⟨hs', hk, hsame⟩ := hquiet (.claim thread) trivial rfl rfl
    exact ⟨⟨hs', h.kept hk hsame (hstill _ rfl rfl) rfl rfl fun _ _ _ _ _ => id⟩, rfl⟩
  | retire thread =>
    obtain ⟨hs', hk, hsame⟩ := hquiet (.retire thread) trivial rfl rfl
    exact ⟨⟨hs', h.kept hk hsame (hstill _ rfl rfl) rfl rfl fun _ _ _ _ _ => id⟩, rfl⟩

end Cloakroom

end HeapLedger
