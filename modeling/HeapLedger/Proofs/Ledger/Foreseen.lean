import HeapLedger.Proofs.Ledger.Foresight
import HeapLedger.Proofs.Ledger.Perform

/-!
# `HeapLedger/Proofs/Ledger/Foreseen.lean` — calls come to what was foreseen

Over headers every call comes to its forecast (`perform_foretold`), wherever the backend may put the
block. All that is left to the backend is one answer: whether it grants the request for memory, if
there is one.

A demand is met by one block with the header that it demands, or not at all (`Delivered`). This is
shown of each way in which the ledger gets to the strategy, and from there the calls differ in what
they reply only.
-/

set_option autoImplicit false

namespace HeapLedger

variable {β : Type} {b : Backend β} {due : Lease → Nat → Prop} {c : b.watched.Contract due}
  {l l' : Ledger (Watched β)} {x : Header} {o : Order} {p : Nat} {d : Holding}

open Strategy (headered headeredContract)
open Strategy.Headered (width custody Found Arrived)

/-! ## Demands that are met -/

/-- How a demand is met: by a block with this header, or not at all. One request is made in either
case, if there is a word for its size, and what is to follow only follows a block. -/
def Delivered (c : b.watched.Contract due) (request : Request) (after : List Request)
    (gone : Option Nat) (x : Header) (l : Ledger (Watched β)) (r : Option Nat)
    (l' : Ledger (Watched β)) : Prop :=
  Asked b request (Header.cost (width b) x) r.isSome after l.heap l'.heap ∧
    ∀ q ∈ r, ∃ e, Arrived c gone x q e l.heap l'.heap

/-- Behind the pointer that is passed, if any, is a block with this header, and `raw` says where the
backend has it. -/
def Backed (c : b.watched.Contract due) (raw : Nat → Nat) (x : Header) (ptr : Option Nat)
    (h : Heap (Watched β)) : Prop :=
  ∀ p ∈ ptr, ∃ d, (custody c).stands p d h ∧ Found b.watched c.toSurvey p d h x ∧ raw p = d.start

/-- How an attempt ends that makes such a demand, with a pointer and the bytes that may be used
there. A failure tells the number that the caller gave. -/
def Obtained (c : b.watched.Contract due) (request : Request) (after : List Request)
    (gone : Option Nat) (x : Header) (size : Nat) (l : Ledger (Watched β)) :
    Except AllocError (Option Nat × Nat) → Ledger (Watched β) → Prop
  | .error e, l' => e = .exhausted size ∧ Delivered c request after gone x l none l'
  | .ok r, l' => r.1.isSome ∧ r.2 = x.size ∧ Delivered c request after gone x l r.1 l'

theorem Obtained.delivered {request : Request} {after : List Request} {gone : Option Nat}
    {r : Except AllocError (Option Nat × Nat)} {size : Nat}
    (h : Obtained c request after gone x size l r l') :
    Delivered c request after gone x l (Ledger.replaced (r.map Prod.fst)) l' := by
  cases r with
  | error e => exact h.2
  | ok r => exact h.2.2

namespace Ledger

/-- A pointer that is there, and the bytes that may be used there. -/
def there (block : Nat × Nat) : Option Nat × Nat :=
  (some block.1, block.2)

/-- An order is met or not, and a failure tells the number that it is told to tell. -/
theorem tryOrder_obtains (hv : c.valid l.heap) (ho : o.Passes b.maxAlign) (size : Nat) :
    Returns (tryOrder (headered b.watched) (some o) size) l fun r l' =>
      Obtained c (o.request (width b)) [] none o.header size l (r.map there) l' := by
  show Returns (onHeap (o.take (headered b.watched)) >>= settle size) l _
  rw [Returns, ends_bind, ends_onHeap]
  apply (Strategy.Headered.take_comes hv ho).imp
  intro r heap hr
  obtain ⟨hasked, hcame⟩ := hr
  apply settle_keeps
  · rintro rfl
    exact ⟨rfl, hasked, forall_mem_none⟩
  · rintro x rfl l₁ hheap
    obtain ⟨husable, hcame⟩ := hcame x rfl
    refine ⟨rfl, husable, ?_⟩
    unfold Delivered
    rw [hheap]
    refine ⟨hasked, ?_⟩
    rintro _ ⟨⟩
    exact hcame

theorem tryReallocUsable_none_obtains (hv : c.valid l.heap) {size : Nat}
    (ho : Order.passed .plain size = some o) :
    Returns (tryReallocUsable (headered b.watched) none size) l
      (Obtained c (o.request (width b)) [] none o.header size l) := by
  have hpasses : o.Passes b.maxAlign := Order.passes_of_passed Order.passes_plain ho
  unfold tryReallocUsable
  rw [tryAllocUsable_eq, ho, Returns]
  simp only
  rw [ends_map]
  exact tryOrder_obtains hv hpasses size

/-- So is a resize that the size rules let through. -/
theorem tryReallocUsable_obtains (hexact : ∀ l, l.asked ≤ l.bytes → due l l.asked)
    (hv : c.valid l.heap) (hp : (custody c).stands p d l.heap)
    (hf : Found b.watched c.toSurvey p d l.heap x) {raw : Nat → Nat} (hraw : raw p = d.start)
    {size : Nat} (hzero : size ≠ 0)
    (hsmall : ¬ Size.tooLarge size = true) :
    Returns (tryReallocUsable (headered b.watched) (some p) size) l
      (Obtained c (((Demand.resize p size).request (width b) x).redirect raw)
        (((Demand.resize p size).trailing (width b) x (some p)).map (Request.redirect raw))
        (some d.start) ⟨size, 0⟩ size l) := by
  have hcost : Header.cost (width b) ⟨size, 0⟩ = size + width b := if_pos rfl
  have hrequest : ((Demand.resize p size).request (width b) x).redirect raw =
      if x.align = 0 then .realloc d.start (size + width b) else .alloc (size + width b) := by
    unfold Demand.request
    rw [apply_ite (Request.redirect raw), ← hraw]
    rfl
  have htrailing : ((Demand.resize p size).trailing (width b) x (some p)).map
      (Request.redirect raw) = if x.align = 0 then [] else [.freeSized d.start d.footprint] := by
    have hfootprint : d.footprint = Header.cost (width b) x := hf.booked
    unfold Demand.trailing
    rw [apply_ite (List.map (Request.redirect raw)), ← hraw, hfootprint]
    rfl
  rw [Returns, tryReallocUsable_passed hzero hsmall, ends_bind, ends_onHeap, hrequest, htrailing]
  apply (Strategy.Headered.realloc_comes hexact hv hp hf (Nat.pos_of_ne_zero hzero)
    (Size.lt_bound hsmall)).imp
  intro r heap hr
  rw [← hcost] at hr
  obtain ⟨hasked, hcame⟩ := hr
  cases r with
  | none => exact ends_pure.2 ⟨rfl, hasked, forall_mem_none⟩
  | some y =>
    obtain ⟨husable, hcame⟩ := hcame y rfl
    simp only
    rw [ends_bind]
    apply count_keeps
    intro l₁ h₁
    rw [ends_bind]
    apply count_keeps
    intro l₂ h₂
    refine ends_pure.2 ⟨rfl, husable, ?_⟩
    unfold Delivered
    rw [h₂, h₁]
    refine ⟨hasked, ?_⟩
    rintro _ ⟨⟩
    exact hcame

/-- A block goes back with what was asked for. -/
theorem free_wrote (hexact : ∀ l, l.asked ≤ l.bytes → due l l.asked) (hv : c.valid l.heap)
    (hp : (custody c).stands p d l.heap) :
    Returns (free (headered b.watched) (some p)) l fun _ l' =>
      Wrote b l.heap l'.heap [.freeSized d.start d.footprint] [] ∧
        c.Trade (some d.start) none l.heap l'.heap := by
  obtain ⟨x, hf⟩ := Strategy.Headered.found hv hp
  unfold free
  rw [Returns, ends_bind, ends_onHeap]
  apply ((Strategy.Headered.free_ends hexact hv hp).also (Strategy.Headered.free_asks hf)).imp
  intro cost heap hr
  obtain ⟨⟨-, t⟩, hwrote⟩ := hr
  apply count_keeps
  intro l' hheap
  rw [hheap]
  exact ⟨hwrote, t⟩

theorem freeWithSize_wrote (hexact : ∀ l, l.asked ≤ l.bytes → due l l.asked)
    (hv : c.valid l.heap) (hf : Found b.watched c.toSurvey p d l.heap x) :
    Returns (freeWithSize (headered b.watched) (some p) x.size) l fun _ l' =>
      Wrote b l.heap l'.heap [.freeSized d.start d.footprint] [] := by
  unfold freeWithSize
  rw [Returns, ends_bind, ends_onHeap, Strategy.Headered.freeWithSize_def, ends_bind,
    Strategy.Headered.header_ends hf, if_neg (not_not_intro rfl)]
  apply ((Strategy.Headered.release_ends hexact hv hf).also
    (Strategy.Headered.release_asks hf)).imp
  intro cost heap hr
  apply count_keeps
  intro l' hheap
  rw [hheap]
  exact hr.2

/-- A size that is not the block's own is found out before anything is asked. -/
theorem freeWithSize_stops (hf : Found b.watched c.toSurvey p d l.heap x) {usable : Nat}
    (husable : usable ≠ x.size) :
    Ends (freeWithSize (headered b.watched) (some p) usable) l (fun _ _ => False) fun e l' =>
      e = .fault (.wrongUsable usable x.size) ∧ l' = l := by
  unfold freeWithSize
  rw [ends_bind, ends_onHeap, Strategy.Headered.freeWithSize_def, ends_bind,
    Strategy.Headered.header_ends hf, if_pos husable, ends_throw]
  exact ⟨rfl, rfl⟩

/-! ### By layout -/

section Layouts

variable {layout : Layout} {size : Nat}

theorem reached_delivers (hv : c.valid l.heap) (ho : o.Passes b.maxAlign) :
    Returns (reached <$> tryOrder (headered b.watched) (some o) size) l
      (Delivered c (o.request (width b)) [] none o.header l) := by
  rw [Returns, ends_map]
  apply (tryOrder_obtains hv ho size).imp
  intro r l' hr
  cases r with
  | error e => exact hr.2
  | ok block => exact hr.2.2

theorem layoutAlloc_delivers (hv : c.valid l.heap)
    (ho : Order.ofLayout .plain b.maxAlign layout = some o) :
    Returns (layoutAlloc (headered b.watched) layout) l
      (Delivered c (o.request (width b)) [] none o.header l) := by
  have hpasses : o.Passes b.maxAlign :=
    Order.passes_of_ofLayout Order.passes_plain ho
  have ho' : Order.ofLayout .plain (headered b.watched).maxAlign layout = some o := ho
  rw [layoutAlloc_eq, ho']
  exact reached_delivers hv hpasses

/-- Zeros that are filled in afterwards are no matter for the header. -/
theorem layoutAllocZeroed_delivers (hv : c.valid l.heap)
    (ho : Order.ofLayout .zeroed b.maxAlign layout = some o) :
    Returns (layoutAllocZeroed (headered b.watched) layout) l
      (Delivered c (o.request (width b)) [] none o.header l) := by
  have hpasses : o.Passes b.maxAlign :=
    Order.passes_of_ofLayout Order.passes_zeroed ho
  have ho' : Order.ofLayout .zeroed (headered b.watched).maxAlign layout = some o := ho
  cases hplain : layout.plainSize (headered b.watched).maxAlign with
  | some plain =>
    rw [layoutAllocZeroed_plain _ hplain, ho']
    exact reached_delivers hv hpasses
  | none =>
    have hsize : layout.size ≤ o.header.size := by
      rw [o.size_header]
      exact Order.le_size_of_ofLayout (fun _ => rfl) ho
    rw [layoutAllocZeroed_aligned _ hplain, ho', Returns, ends_bind]
    apply (reached_delivers hv hpasses).imp
    intro r l₁ hr
    cases r with
    | none => exact ends_pure.2 hr
    | some q =>
      obtain ⟨hasked, hcame⟩ := hr
      obtain ⟨e, harrived⟩ := hcame q rfl
      simp only
      rw [ends_bind, ends_onHeap, ends_mapMemory, ends_pure]
      refine ⟨hasked.still rfl, ?_⟩
      rintro _ ⟨⟩
      refine ⟨e, harrived.write fun a ha => ?_⟩
      have hchanged := Memory.changed_fill ha
      omega

variable {raw : Nat → Nat} {ptr : Option Nat} {y : Demand}

/-- A block is moved by an order, a copy and a free, and the copy is no matter for the headers. -/
theorem layoutMove_delivers (hexact : ∀ l, l.asked ≤ l.bytes → due l l.asked)
    (hv : c.valid l.heap) (hback : Backed c raw x ptr l.heap)
    (ho : (Layout.of? size layout.align).bind (Order.ofLayout .plain b.maxAlign) = some o) :
    Returns (layoutMove (headered b.watched) ptr layout size) l
      (Delivered c (o.request (width b))
        (((Demand.order o).trailing (width b) x ptr).map (Request.redirect raw)) (ptr.map raw)
        o.header l) := by
  obtain ⟨new, hnew, ho'⟩ := Option.bind_eq_some_iff.1 ho
  obtain ⟨rfl, -⟩ := Layout.of?_eq_some hnew
  have hpasses : o.Passes b.maxAlign := Order.passes_of_ofLayout Order.passes_plain ho'
  have hsize : new.size ≤ o.header.size := by
    rw [o.size_header]
    exact Order.le_size_of_ofLayout (fun _ => rfl) ho'
  have ho'' : (Layout.of? new.size layout.align).bind
      (Order.ofLayout .plain (headered b.watched).maxAlign) = some o := ho
  rw [layoutMove_eq, ho'', Returns, ends_bind]
  apply (reached_delivers hv hpasses).imp
  intro r l₁ hr
  obtain ⟨hasked, hcame⟩ := hr
  cases r with
  | none =>
    refine ends_pure.2 ⟨?_, forall_mem_none⟩
    exact hasked.refused
  | some q =>
    obtain ⟨e, harrived⟩ := hcame q rfl
    have hcopy := harrived.write (m := l₁.heap.memory.copy q (ptr.getD 0) (min layout.size new.size))
      fun a ha => by
        have hchanged := Memory.changed_copy ha
        omega
    simp only
    rw [ends_bind, ends_onHeap, ends_mapMemory, ends_bind]
    cases ptr with
    | none =>
      refine ends_pure.2 (ends_pure.2 ⟨hasked.still rfl, ?_⟩)
      rintro _ ⟨⟩
      exact ⟨e, hcopy⟩
    | some p =>
      obtain ⟨d, hp, hf, hraw⟩ := hback p rfl
      have hp' := Custody.stands_of_trade hp hv hcopy.trade (by simp)
      apply (free_wrote hexact hcopy.trade.valid hp').imp
      intro _ l₂ hfreed
      obtain ⟨hwrote, t⟩ := hfreed
      have hcost : d.footprint = Header.cost (width b) x := hf.booked
      refine ends_pure.2 ⟨?_, ?_⟩
      · show Asked _ _ _ _ [.freeSized (raw p) (Header.cost (width b) x)] _ _
        rw [hraw, ← hcost]
        exact (hasked.still rfl).followed hwrote
      · rintro _ ⟨⟩
        refine ⟨e, ?_⟩
        show Arrived c (some (raw p)) o.header q e l.heap l₂.heap
        rw [hraw]
        exact hcopy.move hp t

theorem layoutRealloc_delivers (hexact : ∀ l, l.asked ≤ l.bytes → due l l.asked)
    (hv : c.valid l.heap) (hback : Backed c raw x ptr l.heap)
    (hy : (Layout.of? size layout.align).bind (Demand.ofLayout b.maxAlign ptr) = some y) :
    Returns (layoutRealloc (headered b.watched) ptr layout size) l fun r l' =>
      ∃ gone, Delivered c ((y.request (width b) x).redirect raw)
        ((y.trailing (width b) x ptr).map (Request.redirect raw)) gone y.header l r l' := by
  obtain ⟨new, hnew, hdemand⟩ := Option.bind_eq_some_iff.1 hy
  unfold Demand.ofLayout at hdemand
  cases hplain : new.plainSize (headered b.watched).maxAlign with
  | none =>
    have hplain' : new.plainSize b.maxAlign = none := hplain
    rw [hplain'] at hdemand
    obtain ⟨o, ho, rfl⟩ := Option.map_eq_some_iff.1 hdemand
    have ho' : (Layout.of? size layout.align).bind (Order.ofLayout .plain b.maxAlign) = some o := by
      rw [hnew]
      exact ho
    rw [layoutRealloc_aligned _ ptr hnew hplain]
    apply (layoutMove_delivers hexact hv hback ho').imp
    intro r l' hr
    refine ⟨ptr.map raw, ?_⟩
    cases o <;> exact hr
  | some plain =>
    have hplain' : new.plainSize b.maxAlign = some plain := hplain
    rw [hplain'] at hdemand
    cases ptr with
    | none =>
      obtain ⟨o, ho, rfl⟩ := Option.map_eq_some_iff.1 hdemand
      unfold Order.ofLayout at ho
      simp only [hplain'] at ho
      have hsmall : ¬ Size.tooLarge plain = true := Order.small_of_passed ho
      rw [layoutRealloc_plain _ none hnew hplain hsmall, Returns, ends_map]
      unfold tryRealloc
      rw [ends_map]
      apply (tryReallocUsable_none_obtains hv ho).imp
      intro r l' hr
      refine ⟨none, ?_⟩
      cases o <;> exact Obtained.delivered hr
    | some p =>
      obtain ⟨hne, hsmall, rfl⟩ := Demand.resized_eq_some hdemand
      obtain ⟨d, hp, hf, hraw⟩ := hback p rfl
      rw [layoutRealloc_plain _ (some p) hnew hplain hsmall, Returns, ends_map]
      unfold tryRealloc
      rw [ends_map]
      apply (tryReallocUsable_obtains hexact hv hp hf hraw hne hsmall).imp
      intro r l' hr
      exact ⟨some d.start, Obtained.delivered hr⟩

end Layouts

end Ledger

/-! ## Calls that deal with their failure -/

/-- A call has come to this. -/
structure Foretold (c : b.watched.Contract due) (raw : Nat → Nat) (a : Action) (granted : Bool)
    (f : Forecast) (l : Ledger (Watched β)) (e : Ending) (l' : Ledger (Watched β)) : Prop where
  ending : e.veiled = f.ending
  came : ∀ q ∈ e.came, ∃ y gone d, f.came = some y ∧ Arrived c gone y q d l.heap l'.heap
  wrote : Wrote b l.heap l'.heap (f.requests.map (Request.redirect raw))
    (a.verdicts b.maxAlign granted)
  fits : granted = true → a.verdicts b.maxAlign true = [true]

namespace Action

variable {raw : Nat → Nat} {a : Action} {y : Demand} {e : Ending} {r : Reply Nat}
  {handler : OomHandler}

theorem foretold_idle (h : a.demand b.maxAlign = none)
    (hending : e.veiled = a.idle (width b) x handler) (hcame : e.came = none)
    (hwrote : Wrote b l.heap l'.heap ((a.frees (width b) x).map (Request.redirect raw)) []) :
    ∃ granted, Foretold c raw a granted (a.foreseen b.maxAlign x handler granted) l e l' := by
  refine ⟨false, ?_⟩
  rw [foreseen_idle h]
  refine ⟨hending, ?_, ?_, fun hfalse => nomatch hfalse⟩
  · intro q hq
    rw [hcame] at hq
    cases hq
  · rw [verdicts_idle h]
    exact hwrote

/-- What a call comes to whose demand was met, or was not. -/
theorem foretold_delivered {ptr : Option Nat} (h : a.demand b.maxAlign = some y)
    (hcame : Ending.came (.ok r) = ptr)
    (hreply : r.veiled = if ptr.isSome = true then a.success y.size else a.refusal.veiled)
    (hdelivered : ∃ gone, Delivered c ((y.request (width b) x).redirect raw)
      ((y.trailing (width b) x a.pointer?).map (Request.redirect raw)) gone y.header l ptr l') :
    ∃ granted, Foretold c raw a granted (a.foreseen b.maxAlign x handler granted) l (.ok r) l' := by
  obtain ⟨gone, ⟨hwrote, hfits⟩, hcome⟩ := hdelivered
  have hverdicts : ∀ granted, a.verdicts b.maxAlign granted =
      if Header.cost (width b) y.header < Word.limit then [granted] else [] := fun _ =>
    verdicts_demand h
  refine ⟨ptr.isSome, ?_, ?_, ?_, ?_⟩
  · cases ptr with
    | none =>
      rw [Option.isSome_none, foreseen_refused h]
      exact congrArg Except.ok hreply
    | some q =>
      rw [Option.isSome_some, foreseen_granted h]
      exact congrArg Except.ok hreply
  · intro q hq
    obtain rfl : ptr = some q := hcame.symm.trans hq
    obtain ⟨d, harrived⟩ := hcome q rfl
    rw [Option.isSome_some, foreseen_granted h]
    exact ⟨y.header, gone, d, rfl, harrived⟩
  · rw [hverdicts]
    cases ptr with
    | none =>
      rw [Option.isSome_none] at hwrote ⊢
      rw [foreseen_refused h, apply_ite (List.map (Request.redirect raw))]
      rwa [if_neg Bool.false_ne_true, List.append_nil] at hwrote
    | some q =>
      rw [Option.isSome_some] at hwrote ⊢
      rw [foreseen_granted h, List.map_append, apply_ite (List.map (Request.redirect raw))]
      exact hwrote
  · intro hsome
    rw [hverdicts, if_pos (hfits hsome)]

/-- A call that deals with its failure comes to what is foreseen of it. -/
def ComesTrue (c : b.watched.Contract due) (raw : Nat → Nat) (x : Header) (host : Host)
    (l : Ledger (Watched β)) (a : Action) : Prop :=
  Ends (a.perform (headered b.watched) host) l
    (fun r l' => ∃ granted, Foretold c raw a granted
      (a.foreseen b.maxAlign x l.policy.current granted) l (.ok r) l')
    fun e l' => ∃ granted, Foretold c raw a granted
      (a.foreseen b.maxAlign x l.policy.current granted) l (.error e) l'

variable {host : Host}

theorem attemptsNew_comesTrue (hv : c.valid l.heap) (ha : a.attemptsNew = true) :
    ComesTrue c raw x host l a := by
  have hdemand : a.demand b.maxAlign = (a.orders b.maxAlign).map .order := demand_attemptsNew ha
  have hidle : a.idle (width b) x l.policy.current = .ok (.failed (.overflow a.named)) ∧
      a.frees (width b) x = [] ∧ a.pointer? = none := by
    unfold attemptsNew at ha
    split at ha
    all_goals first
      | exact ⟨rfl, rfl, rfl⟩
      | cases ha
  unfold ComesTrue
  rw [perform_attemptsNew _ host ha]
  unfold reported
  rw [ends_bind]
  cases ho : a.orders b.maxAlign with
  | none =>
    have ho' : a.orders (headered b.watched).maxAlign = none := ho
    rw [ho] at hdemand
    rw [ho']
    refine ends_pure.2 (ends_pure.2 (foretold_idle hdemand hidle.1.symm rfl ?_))
    rw [hidle.2.1]
    exact .nothing rfl
  | some o =>
    have ho' : a.orders (headered b.watched).maxAlign = some o := ho
    rw [ho] at hdemand
    rw [ho']
    apply (Ledger.tryOrder_obtains hv (passes_of_order ho) a.named).imp
    intro r l' hr
    cases r with
    | error e =>
      obtain ⟨rfl, hdelivered⟩ := hr
      apply ends_pure.2
      refine foretold_delivered hdemand rfl ?_ ⟨none, ?_⟩
      · rw [refusal_attemptsNew ha]
        rfl
      · rw [hidle.2.2]
        cases o <;> exact hdelivered
    | ok block =>
      obtain ⟨-, husable, hdelivered⟩ := hr
      apply ends_pure.2
      refine foretold_delivered hdemand (a.came_answered block) ?_ ⟨none, ?_⟩
      · rw [a.veiled_answered]
        exact congrArg a.success (husable.trans o.size_header)
      · rw [hidle.2.2]
        cases o <;> exact hdelivered

/-- Both forms of a resize. The two sizes that free the block demand nothing. -/
theorem resize_comesTrue (hexact : ∀ l, l.asked ≤ l.bytes → due l l.asked) (hv : c.valid l.heap)
    (hback : Backed c raw x (some p) l.heap) {size : Nat} (reply : Option Nat × Nat → Reply Nat)
    (hdemand : a.demand b.maxAlign = Demand.resized p size) (hpointer : a.pointer? = some p)
    (hrefusal : a.refusal = .failed (.exhausted size))
    (hcame : ∀ r, Ending.came (.ok (reply r)) = r.1)
    (hsuccess : ∀ q n, (reply (some q, n)).veiled = a.success n)
    (hzero : size = 0 → a.idle (width b) x l.policy.current = .ok (reply (none, 0)).veiled)
    (hlarge : size ≠ 0 → a.idle (width b) x l.policy.current = .ok (.failed (.overflow size)))
    (hfrees : a.frees (width b) x = [.freeSized p (Header.cost (width b) x)]) :
    Ends (reported reply (Ledger.tryReallocUsable (headered b.watched) (some p) size)) l
      (fun r l' => ∃ granted, Foretold c raw a granted
        (a.foreseen b.maxAlign x l.policy.current granted) l (.ok r) l')
      fun e l' => ∃ granted, Foretold c raw a granted
        (a.foreseen b.maxAlign x l.policy.current granted) l (.error e) l' := by
  obtain ⟨d, hp, hf, hraw⟩ := hback p rfl
  have hcost : d.footprint = Header.cost (width b) x := hf.booked
  have hwrites : (a.frees (width b) x).map (Request.redirect raw) =
      [.freeSized d.start d.footprint] := by
    rw [hfrees, hcost, ← hraw]
    rfl
  unfold reported
  rw [ends_bind]
  by_cases hz : size = 0
  · subst hz
    rw [Ledger.tryReallocUsable_zero, ends_bind]
    apply (Ledger.free_wrote hexact hv hp).imp
    intro _ l' hfreed
    refine ends_pure.2 (ends_pure.2 (foretold_idle hdemand (hzero rfl).symm (hcame _) ?_))
    rw [hwrites]
    exact hfreed.1
  by_cases ht : Size.tooLarge size = true
  · have hnone : a.demand b.maxAlign = none := hdemand.trans (if_pos (.inr ht))
    rw [Ledger.tryReallocUsable_tooLarge ht, ends_bind]
    apply (Ledger.free_wrote hexact hv hp).imp
    intro _ l' hfreed
    refine ends_pure.2 (ends_pure.2 (foretold_idle hnone (hlarge hz).symm rfl ?_))
    rw [hwrites]
    exact hfreed.1
  · have hsome : a.demand b.maxAlign = some (.resize p size) :=
      hdemand.trans (if_neg fun hor => hor.elim hz ht)
    apply (Ledger.tryReallocUsable_obtains hexact hv hp hf hraw hz ht).imp
    intro r l' hr
    cases r with
    | error e =>
      obtain ⟨rfl, hdelivered⟩ := hr
      apply ends_pure.2
      refine foretold_delivered hsome rfl ?_ ⟨some d.start, ?_⟩
      · rw [hrefusal]
        rfl
      · rw [hpointer]
        exact hdelivered
    | ok r =>
      obtain ⟨ptr, n⟩ := r
      obtain ⟨hthere, husable, hdelivered⟩ := hr
      obtain ⟨q, rfl⟩ := Option.isSome_iff_exists.1 hthere
      apply ends_pure.2
      refine foretold_delivered hsome (hcame _) ?_ ⟨some d.start, ?_⟩
      · exact (hsuccess q n).trans (congrArg a.success husable)
      · rw [hpointer]
        exact hdelivered

theorem realloc_comesTrue (hexact : ∀ l, l.asked ≤ l.bytes → due l l.asked) (hv : c.valid l.heap)
    (hback : Backed c raw x (some p) l.heap) (size : Nat) :
    ComesTrue c raw x host l (.realloc .attempt (some p) size) := by
  unfold ComesTrue
  show Ends (reported Reply.pointer (Except.map Prod.fst <$>
    Ledger.tryReallocUsable (headered b.watched) (some p) size)) l _ _
  rw [reported_map]
  refine resize_comesTrue hexact hv hback (fun r => .pointer r.1) rfl rfl rfl (fun _ => rfl)
    (fun _ _ => rfl) ?_ ?_ rfl
  · rintro rfl
    rfl
  · intro hne
    cases size with
    | zero => exact absurd rfl hne
    | succ n => rfl

theorem reallocUsable_comesTrue (hexact : ∀ l, l.asked ≤ l.bytes → due l l.asked)
    (hv : c.valid l.heap) (hback : Backed c raw x (some p) l.heap) (size : Nat) :
    ComesTrue c raw x host l (.reallocUsable .attempt (some p) size) := by
  refine resize_comesTrue hexact hv hback (fun r => .sized r.1 r.2) rfl rfl rfl (fun _ => rfl)
    (fun _ _ => rfl) ?_ ?_ rfl
  · rintro rfl
    rfl
  · intro hne
    cases size with
    | zero => exact absurd rfl hne
    | succ n => rfl

/-! ### By layout -/

section Layouts

variable {layout : Layout} {size : Nat}

/-- A call by layout replies a pointer or none, and has nothing to say about failures. -/
theorem pointer_comesTrue {op : LedgerOp (Watched β) (Option Nat)} (hdemand : a.demand b.maxAlign = some y)
    (hrefusal : a.refusal = .pointer none) (hsuccess : a.success y.size = .pointer (some ()))
    (hop : Returns op l fun r l' => ∃ gone, Delivered c ((y.request (width b) x).redirect raw)
      ((y.trailing (width b) x a.pointer?).map (Request.redirect raw)) gone y.header l r l')
    {stop : Halt → Ledger (Watched β) → Prop} :
    Ends (Reply.pointer <$> op) l
      (fun r l' => ∃ granted, Foretold c raw a granted
        (a.foreseen b.maxAlign x handler granted) l (.ok r) l') stop := by
  rw [ends_map]
  apply hop.imp
  intro r l' hr
  refine foretold_delivered hdemand rfl ?_ hr
  rw [hrefusal, hsuccess]
  cases r <;> rfl

theorem layoutAlloc_comesTrue (hv : c.valid l.heap) :
    ComesTrue c raw x host l (.layoutAlloc layout) := by
  show Ends (Reply.pointer <$> Ledger.layoutAlloc (headered b.watched) layout) l _ _
  cases ho : Order.ofLayout .plain b.maxAlign layout with
  | none =>
    have hnone : Action.demand b.maxAlign (.layoutAlloc layout) = none :=
      congrArg (Option.map Demand.order) ho
    rw [Ledger.layoutAlloc_idle _ ho, ends_map]
    exact ends_pure.2 (foretold_idle hnone rfl rfl (.nothing rfl))
  | some o =>
    have hsome : Action.demand b.maxAlign (.layoutAlloc layout) = some (.order o) :=
      congrArg (Option.map Demand.order) ho
    refine pointer_comesTrue hsome rfl rfl ?_
    apply (Ledger.layoutAlloc_delivers hv ho).imp
    intro r l' hr
    refine ⟨none, ?_⟩
    cases o <;> exact hr

theorem layoutAllocZeroed_comesTrue (hv : c.valid l.heap) :
    ComesTrue c raw x host l (.layoutAllocZeroed layout) := by
  show Ends (Reply.pointer <$> Ledger.layoutAllocZeroed (headered b.watched) layout) l _ _
  cases ho : Order.ofLayout .zeroed b.maxAlign layout with
  | none =>
    have hnone : Action.demand b.maxAlign (.layoutAllocZeroed layout) = none :=
      congrArg (Option.map Demand.order) ho
    rw [Ledger.layoutAllocZeroed_idle _ ho, ends_map]
    exact ends_pure.2 (foretold_idle hnone rfl rfl (.nothing rfl))
  | some o =>
    have hsome : Action.demand b.maxAlign (.layoutAllocZeroed layout) = some (.order o) :=
      congrArg (Option.map Demand.order) ho
    refine pointer_comesTrue hsome rfl rfl ?_
    apply (Ledger.layoutAllocZeroed_delivers hv ho).imp
    intro r l' hr
    refine ⟨none, ?_⟩
    cases o <;> exact hr

theorem layoutRealloc_comesTrue (hexact : ∀ l, l.asked ≤ l.bytes → due l l.asked)
    (hv : c.valid l.heap) {ptr : Option Nat} (hback : Backed c raw x ptr l.heap) :
    ComesTrue c raw x host l (.layoutRealloc ptr layout size) := by
  show Ends (Reply.pointer <$> Ledger.layoutRealloc (headered b.watched) ptr layout size) l _ _
  cases hy : Action.demand b.maxAlign (.layoutRealloc ptr layout size) with
  | none =>
    have hnone : (Layout.of? size layout.align).bind
        (Demand.ofLayout (headered b.watched).maxAlign ptr) = none := hy
    rw [Ledger.layoutRealloc_idle _ hnone, ends_map]
    exact ends_pure.2 (foretold_idle hy rfl rfl (.nothing rfl))
  | some y => exact pointer_comesTrue hy rfl rfl (Ledger.layoutRealloc_delivers hexact hv hback hy)

end Layouts

/-! ### Calls that demand nothing -/

theorem free_comesTrue (hexact : ∀ l, l.asked ≤ l.bytes → due l l.asked) (hv : c.valid l.heap)
    {ptr : Option Nat} (hback : Backed c raw x ptr l.heap) (hdemand : a.demand b.maxAlign = none)
    (hidle : a.idle (width b) x l.policy.current = .ok .done)
    (hfrees : a.frees (width b) x =
      ptr.toList.map (Request.freeSized · (Header.cost (width b) x))) :
    Ends ((fun _ => Reply.done) <$> Ledger.free (headered b.watched) ptr) l
      (fun r l' => ∃ granted, Foretold c raw a granted
        (a.foreseen b.maxAlign x l.policy.current granted) l (.ok r) l')
      fun e l' => ∃ granted, Foretold c raw a granted
        (a.foreseen b.maxAlign x l.policy.current granted) l (.error e) l' := by
  rw [ends_map]
  cases ptr with
  | none =>
    refine ends_pure.2 (foretold_idle hdemand hidle.symm rfl ?_)
    rw [hfrees]
    exact .nothing rfl
  | some p =>
    obtain ⟨d, hp, hf, hraw⟩ := hback p rfl
    have hcost : d.footprint = Header.cost (width b) x := hf.booked
    apply (Ledger.free_wrote hexact hv hp).imp
    intro _ l' hfreed
    refine foretold_idle hdemand hidle.symm rfl ?_
    have hwrites : (a.frees (width b) x).map (Request.redirect raw) =
        [.freeSized d.start d.footprint] := by
      rw [hfrees, hcost, ← hraw]
      rfl
    rw [hwrites]
    exact hfreed.1

theorem freeWithSize_comesTrue (hexact : ∀ l, l.asked ≤ l.bytes → due l l.asked)
    (hv : c.valid l.heap) {ptr : Option Nat} (hback : Backed c raw x ptr l.heap) {usable : Nat} :
    ComesTrue c raw x host l (.freeWithSize ptr usable) := by
  show Ends ((fun _ => Reply.done) <$> Ledger.freeWithSize (headered b.watched) ptr usable) l _ _
  rw [ends_map]
  cases ptr with
  | none => exact ends_pure.2 (foretold_idle rfl rfl rfl (.nothing rfl))
  | some p =>
    obtain ⟨d, hp, hf, hraw⟩ := hback p rfl
    have hcost : d.footprint = Header.cost (width b) x := hf.booked
    by_cases husable : usable = x.size
    · subst husable
      have hfrees : (Action.frees (width b) x (.freeWithSize (some p) x.size)).map
          (Request.redirect raw) = [.freeSized d.start d.footprint] := by
        have hown : Action.frees (width b) x (.freeWithSize (some p) x.size) =
            [.freeSized p (Header.cost (width b) x)] := if_pos rfl
        rw [hown, hcost, ← hraw]
        rfl
      apply (Ledger.freeWithSize_wrote hexact hv hf).imp
      intro _ l' hwrote
      refine foretold_idle rfl ?_ rfl ?_
      · exact (if_pos rfl).symm
      · rw [hfrees]
        exact hwrote
    · have hfrees : Action.frees (width b) x (.freeWithSize (some p) usable) = [] :=
        if_neg husable
      apply (Ledger.freeWithSize_stops hf husable).imp (fun _ _ => False.elim)
      rintro _ _ ⟨rfl, rfl⟩
      refine foretold_idle rfl ?_ rfl ?_
      · exact (if_neg husable).symm
      · rw [hfrees]
        exact .nothing rfl

theorem usableSize_comesTrue (hback : Backed c raw x (some p) l.heap) :
    ComesTrue c raw x host l (.usableSize p) := by
  obtain ⟨d, hp, hf, -⟩ := hback p rfl
  have hlook : (headered b.watched).usableSize p l.heap = .ok x.size := by
    show Header.size <$> Header.read l.heap.memory p = _
    rw [hf.read]
    rfl
  show Ends (Reply.bytes <$> Ledger.usableSize (headered b.watched) p) l _ _
  unfold Ledger.usableSize
  rw [ends_map, ends_onHeap, ends_query hlook]
  exact foretold_idle rfl rfl rfl (.nothing rfl)

theorem allocationSize_comesTrue (hback : Backed c raw x (some p) l.heap) :
    ComesTrue c raw x host l (.allocationSize p) := by
  obtain ⟨d, hp, hf, -⟩ := hback p rfl
  have hcost : d.footprint = Header.cost (width b) x := hf.booked
  have hlook : (headered b.watched).footprint p l.heap = .ok (Header.cost (width b) x) := by
    show (Header.read l.heap.memory p >>= fun x => Header.footprint (width b) x) = _
    rw [hf.read, Header.ok_bind, ← hcost]
    exact hf.cost
  show Ends (Reply.bytes <$> Ledger.allocationSize (headered b.watched) p) l _ _
  unfold Ledger.allocationSize
  rw [ends_map, ends_onHeap, ends_query hlook]
  exact foretold_idle rfl rfl rfl (.nothing rfl)

/-- Maintenance is handed on to the backend. -/
theorem setBackgroundThread_comesTrue (hv : c.valid l.heap) {enable : Bool} :
    ComesTrue c raw x host l (.setBackgroundThread enable) := by
  have hwatch : Ends (b.watched.setBackgroundThread enable) l.heap
      (fun _ h' => Wrote b l.heap h' [.setBackgroundThread enable] []) fun _ _ => True :=
    wrote_watch rfl
  show Ends ((fun _ => Reply.done) <$> Ledger.setBackgroundThread (headered b.watched) enable) l _ _
  unfold Ledger.setBackgroundThread
  rw [ends_map, ends_onHeap]
  apply ((c.setBackgroundThread enable hv).also hwatch).imp
  intro _ heap hr
  exact foretold_idle rfl rfl rfl hr.2

theorem purge_comesTrue (hv : c.valid l.heap) : ComesTrue c raw x host l .purge := by
  have hwatch : Ends b.watched.purge l.heap (fun _ h' => Wrote b l.heap h' [.purge] [])
      fun _ _ => True := wrote_watch rfl
  show Ends (Reply.purge <$> Ledger.purge (headered b.watched)) l _ _
  unfold Ledger.purge
  rw [ends_map, ends_bind, ends_onHeap]
  apply ((c.purge hv).also hwatch).imp
  intro outcome heap hr
  rw [ends_bind, ends_emit]
  exact ends_pure.2 (foretold_idle rfl rfl rfl hr.2)

/-- Every call that deals with its failure comes to what is foreseen of it. -/
theorem attempt_comesTrue (hexact : ∀ l, l.asked ≤ l.bytes → due l l.asked)
    (hv : c.valid l.heap) (hback : Backed c raw x a.pointer? l.heap) (hattempt : a.attempt = none)
    (hbooked : a.booked = true) (hadvise : ∀ ptr hint, a ≠ .adviseUnused ptr hint) :
    ComesTrue c raw x host l a := by
  have hstill : ∀ {r : Reply Nat}, a.demand b.maxAlign = none →
      .ok r.veiled = a.idle (width b) x l.policy.current → Ending.came (.ok r) = none →
      a.frees (width b) x = [] → ∀ {l' : Ledger (Watched β)}, l'.heap = l.heap →
      ∃ granted, Foretold c raw a granted (a.foreseen b.maxAlign x l.policy.current granted) l
        (.ok r) l' := by
    intro r hdemand hidle hcame hfrees l' hheap
    refine foretold_idle hdemand hidle hcame ?_
    rw [hfrees, hheap]
    exact .nothing rfl
  cases hnew : a.attemptsNew with
  | true => exact attemptsNew_comesTrue hv hnew
  | false =>
  cases a with
  | realloc mode ptr size =>
    cases mode with
    | orFail => cases hattempt
    | attempt =>
      cases ptr with
      | none => cases hnew
      | some p => exact realloc_comesTrue hexact hv hback size
  | reallocUsable mode ptr size =>
    cases mode with
    | orFail => cases hattempt
    | attempt =>
      cases ptr with
      | none => cases hnew
      | some p => exact reallocUsable_comesTrue hexact hv hback size
  | free ptr =>
    refine free_comesTrue hexact hv hback rfl rfl ?_
    cases ptr <;> rfl
  | layoutFree ptr layout =>
    refine free_comesTrue hexact hv hback rfl rfl ?_
    cases ptr <;> rfl
  | freeWithSize ptr usable => exact freeWithSize_comesTrue hexact hv hback
  | usableSize ptr => exact usableSize_comesTrue hback
  | allocationSize ptr => exact allocationSize_comesTrue hback
  | layoutAlloc layout => exact layoutAlloc_comesTrue hv
  | layoutAllocZeroed layout => exact layoutAllocZeroed_comesTrue hv
  | layoutRealloc ptr layout size => exact layoutRealloc_comesTrue hexact hv hback
  | setBackgroundThread enable => exact setBackgroundThread_comesTrue hv
  | purge => exact purge_comesTrue hv
  | info =>
    show Ends (Reply.info <$> Ledger.info (headered b.watched)) l _ _
    unfold Ledger.info
    rw [ends_map, ends_bind, ends_get]
    exact ends_pure.2 (hstill rfl rfl rfl rfl rfl)
  | record =>
    unfold ComesTrue perform
    rw [ends_bind, ends_get]
    exact ends_pure.2 (hstill rfl rfl rfl rfl rfl)
  | handler =>
    show Ends (Reply.handler <$> Ledger.handler) l _ _
    unfold Ledger.handler
    rw [ends_map, ends_bind, ends_get]
    exact ends_pure.2 (hstill rfl rfl rfl rfl rfl)
  | setHandler handler =>
    show Ends ((fun _ => Reply.done) <$> Ledger.setHandler handler) l _ _
    unfold Ledger.setHandler
    rw [ends_map, ends_bind, ends_emit, ends_modify]
    exact hstill rfl rfl rfl rfl rfl
  | adviseUnused ptr hint => exact absurd rfl (hadvise ptr hint)
  | dupString => cases hattempt
  | alloc mode | allocUsable mode | allocZeroed mode | allocZeroedUsable mode
  | allocZeroedArray mode | allocAligned mode =>
    cases mode with
    | attempt => cases hnew
    | orFail => cases hattempt
  | blockAlloc | blockAllocZeroed | blockAllocAligned | blockRealloc | blockFree
  | blockFreeWithSize | blockUsableSize | blockFootprint => cases hbooked

/-! ## Calls that may not fail -/

theorem ComesTrue.settled (h : ComesTrue c raw x host l a) :
    ∃ granted, Foretold c raw a granted (a.foreseen b.maxAlign x l.policy.current granted) l
      (settled (a.perform (headered b.watched) host l)).1
      (settled (a.perform (headered b.watched) host l)).2 := by
  cases hrun : a.perform (headered b.watched) host l with
  | ok r l' => exact h.of_ok hrun
  | error e l' => exact h.of_error hrun

section Insistence

variable {t : Action} {granted : Bool} {f : Forecast}

theorem verdicts_attempt (ha : a.attempt = some t) (maxAlign : Nat) (granted : Bool) :
    a.verdicts maxAlign granted = t.verdicts maxAlign granted := by
  unfold verdicts
  rw [demand_attempt ha]

theorem pressed_ok (hr : ∀ e, r ≠ .failed e) : a.pressed handler (.ok r.veiled) = .ok r.veiled := by
  cases r with
  | failed e => exact absurd rfl (hr e)
  | _ => rfl

/-- A block for `size` bytes has at least that many. -/
theorem size_le_came {size : Nat} {y : Header}
    (h : (Action.foreseen b.maxAlign x handler granted (.alloc .attempt size)).came = some y) :
    size ≤ y.size := by
  obtain ⟨z, hz, rfl⟩ := demand_of_foreseen h
  obtain ⟨o, ho, rfl⟩ := Option.map_eq_some_iff.1 hz
  show size ≤ o.header.size
  rw [o.size_header]
  exact Order.le_size_of_passed (fun _ => rfl) ho

/-- What is written to the block that an attempt has got is written to usable bytes. -/
theorem changed_fill (ha : a.attempt = some t) {q : Nat} {y : Header}
    (hcame : (t.foreseen b.maxAlign x handler granted).came = some y)
    (hq : Ending.came (.ok r) = some q) {m : Memory} {i : Nat}
    (hi : (a.fill r m).byte i ≠ m.byte i) : q ≤ i ∧ i < q + y.size := by
  cases a with
  | dupString text =>
    cases ha
    cases r with
    | pointer ptr =>
      cases hq
      have hchanged := Memory.changed_storeString hi
      have hsize := size_le_came hcame
      omega
    | _ => exact absurd rfl hi
  | _ => exact absurd rfl hi

/-- The handler is called, or there is an excuse, or the block is written to, and nothing else is
different from the attempt. -/
theorem insisted_foretold (ha : a.attempt = some t)
    {result : EStateM.Result Halt (Ledger (Watched β)) (Reply Nat)}
    (h : Foretold c raw t granted (t.foreseen b.maxAlign x handler granted) l (settled result).1
      (settled result).2) :
    Foretold c raw a granted (a.pressing handler (t.foreseen b.maxAlign x handler granted)) l
      (settled (a.insisted handler result)).1 (settled (a.insisted handler result)).2 := by
  have hending := h.ending
  have hwrote := h.wrote
  have hfits := h.fits
  rw [← verdicts_attempt ha] at hwrote hfits
  have hpressed : ∀ {e}, Ending.veiled e = a.pressed handler (settled result).1.veiled →
      e.veiled = (a.pressing handler (t.foreseen b.maxAlign x handler granted)).ending := by
    intro e he
    rw [he, hending]
    rfl
  cases result with
  | error e l' => exact ⟨hpressed rfl, h.came, hwrote, hfits⟩
  | ok r l' =>
    by_cases hr : ∃ e, r = .failed e
    · obtain ⟨e, rfl⟩ := hr
      cases hexcuse : a.excuse with
      | some reply =>
        rw [insisted_excused hexcuse]
        refine ⟨hpressed ?_, ?_, hwrote, hfits⟩
        · show _ = a.pressed handler (.ok (.failed e))
          unfold pressed
          simp only [hexcuse]
          rfl
        · intro q hq
          have hnone := (excuse_came hexcuse).symm.trans hq
          cases hnone
      | none =>
        rw [insisted_failed hexcuse]
        refine ⟨hpressed ?_, forall_mem_none, hwrote.still rfl, hfits⟩
        show _ = a.pressed handler (.ok (.failed e))
        unfold pressed
        simp only [hexcuse]
        rfl
    · have hr' : ∀ e, r ≠ .failed e := fun e he => hr ⟨e, he⟩
      rw [insisted_ok hr']
      refine ⟨hpressed (pressed_ok hr').symm, ?_, hwrote.still rfl, hfits⟩
      intro q hq
      obtain ⟨y, gone, d, hcame, harrived⟩ := h.came q hq
      exact ⟨y, gone, d, hcame, harrived.write fun i hi => changed_fill ha hcame hq hi⟩

end Insistence

/-- Every call comes to its forecast, up to one answer of the backend. -/
theorem perform_foretold (host : Host) (hexact : ∀ l, l.asked ≤ l.bytes → due l l.asked)
    (hv : c.valid l.heap) (hback : Backed c raw x a.pointer? l.heap) (hbooked : a.booked = true)
    (hadvise : ∀ ptr hint, a ≠ .adviseUnused ptr hint) :
    ∃ granted, Foretold c raw a granted (a.forecast b.maxAlign x l.policy.current granted) l
      (settled (a.perform (headered b.watched) host l)).1
      (settled (a.perform (headered b.watched) host l)).2 := by
  unfold forecast
  cases hattempt : a.attempt with
  | none => exact (attempt_comesTrue hexact hv hback hattempt hbooked hadvise).settled
  | some t =>
    have hback' : Backed c raw x t.pointer? l.heap := by
      rw [pointer_attempt hattempt]
      exact hback
    have hadvise' : ∀ ptr hint, t ≠ .adviseUnused ptr hint := by
      unfold attempt at hattempt
      split at hattempt
      all_goals
        cases hattempt
        try exact fun _ _ h => nomatch h
    have htrue : ComesTrue c raw x host l t := attempt_comesTrue hexact hv hback'
      (attemptOf hattempt).attempt (booked_of_attempt hattempt).1 hadvise'
    obtain ⟨granted, h⟩ := htrue.settled
    rw [perform_insisted _ host l hattempt]
    exact ⟨granted, insisted_foretold hattempt h⟩

end Action

end HeapLedger
