import HeapLedger.Proofs.Strategy.Sightings

/-!
# `HeapLedger/Proofs/Ledger/Foresight.lean` — what a call over headers will come to

Of a call over a headered strategy everything but the pointers can be told beforehand: how it ends,
the header of the block that it hands out, and what it asks of the backend. All that has to be known
is the header behind the pointer that is passed, the handler in force, and whether the backend will
grant the one request for memory that there may be (`Action.forecast`). So can the bytes that a
block holds when it is handed out, as far as anybody has put something there (`Action.content`).

Where blocks lie is not among the things that have to be known. Names of pointers do not matter
either (`forecast_redirect`).
-/

set_option autoImplicit false

namespace HeapLedger

/-! ## Pointers by other names -/

/-- The same call with other pointers. -/
def Action.redirect (f : Nat → Nat) : Action → Action
  | .realloc mode ptr size => .realloc mode (ptr.map f) size
  | .reallocUsable mode ptr size => .reallocUsable mode (ptr.map f) size
  | .free ptr => .free (ptr.map f)
  | .freeWithSize ptr usable => .freeWithSize (ptr.map f) usable
  | .usableSize ptr => .usableSize (f ptr)
  | .allocationSize ptr => .allocationSize (f ptr)
  | .adviseUnused ptr hint => .adviseUnused (ptr.map f) hint
  | .layoutRealloc ptr layout size => .layoutRealloc (ptr.map f) layout size
  | .layoutFree ptr layout => .layoutFree (ptr.map f) layout
  | .blockRealloc ptr size => .blockRealloc (f ptr) size
  | .blockFree ptr => .blockFree (f ptr)
  | .blockFreeWithSize ptr usable => .blockFreeWithSize (f ptr) usable
  | .blockUsableSize ptr => .blockUsableSize (f ptr)
  | .blockFootprint ptr => .blockFootprint (f ptr)
  | a => a

/-- The same request about other pointers. -/
def Request.redirect (f : Nat → Nat) : Request → Request
  | .realloc ptr size => .realloc (f ptr) size
  | .free ptr => .free (f ptr)
  | .freeSized ptr size => .freeSized (f ptr) size
  | r => r

/-- The pointer that a request is about, if it is about one. -/
def Request.pointer? : Request → Option Nat
  | .realloc ptr _ | .free ptr | .freeSized ptr _ => some ptr
  | _ => none

def Demand.redirect (f : Nat → Nat) : Demand → Demand
  | .order o => .order o
  | .resize ptr size => .resize (f ptr) size

/-- A reply without its pointers, and without what a backend says about itself. -/
def Reply.veiled : Reply Nat → Reply Unit
  | .info _ | .purge _ | .text _ => .done
  | r => r.map fun _ => ()

def Ending.veiled (e : Ending) : Except Halt (Reply Unit) :=
  e.map Reply.veiled

/-- How a call ended, and the ledger by then. -/
def Action.settled {β : Type} :
    EStateM.Result Halt (Ledger β) (Reply Nat) → Ending × Ledger β
  | .ok r l => (.ok r, l)
  | .error e l => (.error e, l)

theorem Stack.sightings_settled {β : Type} (u : Stack β) (host : Host) (a : Action)
    (l : Ledger β) : u.sightings host a l =
      (Action.settled (a.perform u.watched.strategy host l.watched)).2.heap.state.seen.reverse := by
  unfold sightings Action.settled
  cases a.perform u.watched.strategy host l.watched <;> rfl

/-! ## Demands behind headers -/

namespace Order

variable {maxAlign size : Nat} {kind : Nat → Order} {layout : Layout} {o : Order}

theorem size_header (o : Order) : o.header.size = o.size := by
  cases o <;> rfl

theorem le_size_of_passed (hkind : ∀ n, (kind n).size = n) (h : passed kind size = some o) :
    size ≤ o.size := by
  obtain ⟨-, rfl⟩ := passed_eq_some h
  rw [hkind]
  exact Size.le_clamp size

/-- An order for a layout is for no less than the layout says. -/
theorem le_size_of_ofLayout (hkind : ∀ n, (kind n).size = n)
    (h : ofLayout kind maxAlign layout = some o) : layout.size ≤ o.size := by
  unfold ofLayout at h
  split at h
  · rename_i plain hplain
    exact Nat.le_trans (Layout.le_plainSize hplain).1 (le_size_of_passed hkind h)
  · exact le_size_of_passed (fun n => rfl) h

end Order

namespace Demand

/-- The header of the block that comes of a demand. -/
def header : Demand → Header
  | order o => o.header
  | resize _ n => ⟨n, 0⟩

/-- What a demand asks of the backend, when `x` is the header of the block that is resized. -/
def request (w : Nat) (x : Header) : Demand → Request
  | order o => o.request w
  | resize p n => if x.align = 0 then .realloc p (n + w) else .alloc (n + w)

/-- What is asked when the request has been granted. An over-aligned block goes back when there is a
new one, and so does a block that is moved by layout. -/
def trailing (w : Nat) (x : Header) (ptr : Option Nat) : Demand → List Request
  | order _ => ptr.toList.map (Request.freeSized · (Header.cost w x))
  | resize p _ => if x.align = 0 then [] else [.freeSized p (Header.cost w x)]

theorem size_header (y : Demand) : y.header.size = y.size := by
  cases y with
  | order o => exact o.size_header
  | resize p n => rfl

end Demand

/-! ## Forecasts -/

/-- How many bytes a resize by layout keeps: all that fit a block that the strategy resizes, and what
the layouts have in common when the block is moved. -/
def Layout.kept (maxAlign : Nat) (layout : Layout) (size : Nat) : Nat :=
  match (Layout.of? size layout.align).bind (Layout.plainSize maxAlign) with
  | some plain => plain
  | none => min layout.size size

/-- What a call will come to, but for pointers. -/
structure Forecast where
  ending : Except Halt (Reply Unit)
  /-- The header of the block that is handed out. -/
  came : Option Header
  requests : List Request

namespace Action

/-- What a call replies that has got `n` usable bytes. -/
def success (n : Nat) : Action → Reply Unit
  | .allocUsable _ _ | .allocZeroedUsable _ _ | .reallocUsable _ _ _ => .sized (some ()) n
  | _ => .pointer (some ())

/-- How a call ends that demands nothing. -/
def idle (w : Nat) (x : Header) (handler : OomHandler) : Action → Except Halt (Reply Unit)
  | .realloc _ (some _) 0 => .ok (.pointer none)
  | .reallocUsable _ (some _) 0 => .ok (.sized none 0)
  | .layoutAlloc _ | .layoutAllocZeroed _ | .layoutRealloc _ _ _ => .ok (.pointer none)
  | .freeWithSize (some _) usable =>
      if usable = x.size then .ok .done else .error (.fault (.wrongUsable usable x.size))
  | .usableSize _ => .ok (.bytes x.size)
  | .allocationSize _ => .ok (.bytes (Header.cost w x))
  | .handler => .ok (.handler handler)
  | .free _ | .freeWithSize none _ | .layoutFree _ _ | .setHandler _ | .setBackgroundThread _
  | .info | .purge | .record => .ok .done
  | a => .ok (.failed (.overflow a.named))

/-- What a call asks that demands nothing. -/
def frees (w : Nat) (x : Header) : Action → List Request
  | .free (some p) | .layoutFree (some p) _ | .realloc _ (some p) _
  | .reallocUsable _ (some p) _ => [.freeSized p (Header.cost w x)]
  | .freeWithSize (some p) usable =>
      if usable = x.size then [.freeSized p (Header.cost w x)] else []
  | .setBackgroundThread enable => [.setBackgroundThread enable]
  | .purge => [.purge]
  | _ => []

/-- What a call will come to that deals with its failure. -/
def foreseen (maxAlign : Nat) (x : Header) (handler : OomHandler) (granted : Bool) (a : Action) :
    Forecast :=
  let w := Header.width maxAlign
  match a.demand maxAlign with
  | none => ⟨a.idle w x handler, none, a.frees w x⟩
  | some y =>
      let asked := if Header.cost w y.header < Word.limit then [y.request w x] else []
      if granted then ⟨.ok (a.success y.size), some y.header, asked ++ y.trailing w x a.pointer?⟩
      else ⟨.ok a.refusal.veiled, none, asked⟩

/-- How a call ends that may not fail, from how its attempt does. -/
def pressed (handler : OomHandler) (a : Action) : Except Halt (Reply Unit) →
    Except Halt (Reply Unit)
  | .ok (.failed e) =>
      match a.excuse with
      | some reply => .ok reply.veiled
      | none => .error (.outOfMemory handler e.requested)
  | e => e

/-- What a call will come to that may not fail, from what its attempt will. -/
def pressing (handler : OomHandler) (a : Action) (f : Forecast) : Forecast :=
  { f with ending := a.pressed handler f.ending }

/-- What a call will come to. -/
def forecast (maxAlign : Nat) (x : Header) (handler : OomHandler) (granted : Bool) (a : Action) :
    Forecast :=
  match a.attempt with
  | none => a.foreseen maxAlign x handler granted
  | some t => a.pressing handler (t.foreseen maxAlign x handler granted)

/-- The answers to the requests for memory that a call makes: one if there is a word for its size. -/
def verdicts (maxAlign : Nat) (granted : Bool) (a : Action) : List Bool :=
  match a.demand maxAlign with
  | none => []
  | some y =>
      if Header.cost (Header.width maxAlign) y.header < Word.limit then [granted] else []

/-! ## Content -/

/-- What the block that a call hands out holds, from what the block that is passed holds. Nothing is
said of bytes where nobody has put anything. -/
def content (maxAlign : Nat) (old : Nat → Option UInt8) : Action → Nat → Option UInt8
  | .allocZeroed _ size, i | .allocZeroedUsable _ size, i =>
      if i < Size.clamp size then some 0 else none
  | .allocZeroedArray _ count elem, i => if i < Size.clamp (count * elem) then some 0 else none
  | .layoutAllocZeroed layout, i => if i < layout.size then some 0 else none
  | .dupString text, i => (text ++ [0])[i]?
  | .realloc _ (some _) size, i | .reallocUsable _ (some _) size, i =>
      if i < size then old i else none
  | .layoutRealloc (some _) layout size, i =>
      if i < layout.kept maxAlign size then old i else none
  | _, _ => none

/-! ## Forecasts by cases -/

theorem pointer_attempt {a t : Action} (ha : a.attempt = some t) : t.pointer? = a.pointer? := by
  unfold attempt at ha
  split at ha
  all_goals
    cases ha
    try rfl

section Cases

variable {maxAlign : Nat} {x : Header} {handler : OomHandler} {a : Action} {y : Demand}

theorem came_answered (a : Action) (block : Nat × Nat) :
    Ending.came (.ok (a.answered block)) = some block.1 := by
  cases a <;> rfl

theorem veiled_answered (a : Action) (block : Nat × Nat) :
    (a.answered block).veiled = a.success block.2 := by
  cases a <;> rfl

theorem foreseen_idle {granted : Bool} (h : a.demand maxAlign = none) :
    a.foreseen maxAlign x handler granted =
      ⟨a.idle (Header.width maxAlign) x handler, none, a.frees (Header.width maxAlign) x⟩ := by
  unfold foreseen
  rw [h]

theorem foreseen_granted (h : a.demand maxAlign = some y) :
    a.foreseen maxAlign x handler true =
      ⟨.ok (a.success y.size), some y.header,
        (if Header.cost (Header.width maxAlign) y.header < Word.limit then
          [y.request (Header.width maxAlign) x] else []) ++
          y.trailing (Header.width maxAlign) x a.pointer?⟩ := by
  unfold foreseen
  rw [h]
  rfl

theorem foreseen_refused (h : a.demand maxAlign = some y) :
    a.foreseen maxAlign x handler false =
      ⟨.ok a.refusal.veiled, none,
        if Header.cost (Header.width maxAlign) y.header < Word.limit then
          [y.request (Header.width maxAlign) x] else []⟩ := by
  unfold foreseen
  rw [h]
  rfl

/-- The block that comes has the header that was demanded. -/
theorem demand_of_foreseen {granted : Bool} {z : Header}
    (h : (a.foreseen maxAlign x handler granted).came = some z) :
    ∃ y, a.demand maxAlign = some y ∧ z = y.header := by
  cases hy : a.demand maxAlign with
  | none =>
    rw [foreseen_idle hy] at h
    cases h
  | some y =>
    cases granted with
    | false =>
      rw [foreseen_refused hy] at h
      cases h
    | true =>
      rw [foreseen_granted hy] at h
      exact ⟨y, rfl, (Option.some.inj h).symm⟩

theorem demand_of_forecast {granted : Bool} {z : Header}
    (h : (a.forecast maxAlign x handler granted).came = some z) :
    ∃ y, a.demand maxAlign = some y ∧ z = y.header := by
  unfold forecast at h
  cases hattempt : a.attempt with
  | none =>
    rw [hattempt] at h
    exact demand_of_foreseen h
  | some t =>
    rw [hattempt] at h
    rw [demand_attempt hattempt]
    exact demand_of_foreseen h

theorem pointer_of_frees {w p : Nat} {q : Request} (hq : q ∈ a.frees w x) (hp : p ∈ q.pointer?) :
    p ∈ a.pointer? := by
  unfold frees at hq
  split at hq
  case h_5 =>
    split at hq
    · obtain rfl := List.mem_singleton.1 hq
      exact hp
    · cases hq
  case h_6 | h_7 =>
    obtain rfl := List.mem_singleton.1 hq
    cases hp
  case h_8 => cases hq
  all_goals
    obtain rfl := List.mem_singleton.1 hq
    exact hp

theorem pointer_of_trailing {w p : Nat} {q : Request} (hy : a.demand maxAlign = some y)
    (hq : q ∈ y.trailing w x a.pointer?) (hp : p ∈ q.pointer?) : p ∈ a.pointer? := by
  cases y with
  | order o =>
    obtain ⟨r, hr, rfl⟩ := List.mem_map.1 hq
    cases hp
    exact Option.mem_toList.1 hr
  | resize r n =>
    change q ∈ (if x.align = 0 then [] else [Request.freeSized r (Header.cost w x)]) at hq
    split at hq
    · cases hq
    · obtain rfl := List.mem_singleton.1 hq
      cases hp
      exact pointer_of_resize hy

theorem pointer_of_request {w p : Nat} (hy : a.demand maxAlign = some y)
    (hp : p ∈ (y.request w x).pointer?) : p ∈ a.pointer? := by
  cases y with
  | order o => cases o <;> cases hp
  | resize r n =>
    change p ∈ (if x.align = 0 then Request.realloc r (n + w) else .alloc (n + w)).pointer? at hp
    split at hp
    · cases hp
      exact pointer_of_resize hy
    · cases hp

theorem pointer_of_foreseen {granted : Bool} {p : Nat} {q : Request}
    (hq : q ∈ (a.foreseen maxAlign x handler granted).requests) (hp : p ∈ q.pointer?) :
    p ∈ a.pointer? := by
  cases hy : a.demand maxAlign with
  | none =>
    rw [foreseen_idle hy] at hq
    exact pointer_of_frees hq hp
  | some y =>
    have hasked : q ∈ (if Header.cost (Header.width maxAlign) y.header < Word.limit then
        [y.request (Header.width maxAlign) x] else []) → p ∈ a.pointer? := by
      intro hmem
      split at hmem
      · obtain rfl := List.mem_singleton.1 hmem
        exact pointer_of_request hy hp
      · cases hmem
    cases granted with
    | false =>
      rw [foreseen_refused hy] at hq
      exact hasked hq
    | true =>
      rw [foreseen_granted hy] at hq
      rcases List.mem_append.1 hq with hmem | hmem
      · exact hasked hmem
      · exact pointer_of_trailing hy hmem hp

/-- Nothing is asked about other pointers than the one that is passed. -/
theorem pointer_of_forecast {granted : Bool} {p : Nat} {q : Request}
    (hq : q ∈ (a.forecast maxAlign x handler granted).requests) (hp : p ∈ q.pointer?) :
    p ∈ a.pointer? := by
  unfold forecast at hq
  cases hattempt : a.attempt with
  | none =>
    rw [hattempt] at hq
    exact pointer_of_foreseen hq hp
  | some t =>
    rw [hattempt] at hq
    rw [← pointer_attempt hattempt]
    exact pointer_of_foreseen hq hp

theorem verdicts_idle {granted : Bool} (h : a.demand maxAlign = none) :
    a.verdicts maxAlign granted = [] := by
  unfold verdicts
  rw [h]

theorem verdicts_demand {granted : Bool} (h : a.demand maxAlign = some y) :
    a.verdicts maxAlign granted =
      if Header.cost (Header.width maxAlign) y.header < Word.limit then [granted] else [] := by
  unfold verdicts
  rw [h]

end Cases

end Action

/-! ## Names do not matter -/

theorem Request.redirect_redirect (f g : Nat → Nat) (r : Request) :
    (r.redirect f).redirect g = r.redirect fun p => g (f p) := by
  cases r <;> rfl

namespace Demand

variable (f : Nat → Nat) (y : Demand)

theorem header_redirect : (y.redirect f).header = y.header := by
  cases y <;> rfl

theorem request_redirect (w : Nat) (x : Header) :
    (y.redirect f).request w x = (y.request w x).redirect f := by
  cases y with
  | order o => cases o <;> rfl
  | resize p n =>
    unfold request redirect
    rw [apply_ite (Request.redirect f)]
    rfl

theorem trailing_redirect (w : Nat) (x : Header) (ptr : Option Nat) :
    (y.redirect f).trailing w x (ptr.map f) = (y.trailing w x ptr).map (Request.redirect f) := by
  cases y with
  | order o => cases ptr <;> rfl
  | resize p n =>
    unfold trailing redirect
    rw [apply_ite (List.map (Request.redirect f))]
    rfl

end Demand

namespace Action

variable (f : Nat → Nat) (a : Action)

theorem pointer_redirect : (a.redirect f).pointer? = a.pointer?.map f := by
  cases a <;> rfl

theorem booked_redirect : (a.redirect f).booked = a.booked := by
  cases a <;> rfl

theorem gone_redirect (e : Ending) : (a.redirect f).gone e = (a.gone e).map f := by
  have hfails : (a.redirect f).fails e = a.fails e := by
    unfold fails
    cases a <;> rfl
  have hspent : (a.redirect f).spent = a.spent.map f := by
    cases a <;> rfl
  have hforfeit : (a.redirect f).forfeit = a.forfeit.map f := by
    cases a with
    | realloc mode ptr size => exact (apply_ite (Option.map f) _ ptr none).symm
    | reallocUsable mode ptr size => exact (apply_ite (Option.map f) _ ptr none).symm
    | _ => rfl
  unfold gone
  rw [hfails, hspent, hforfeit]
  exact (apply_ite (Option.map f) _ _ _).symm

theorem attempt_redirect : (a.redirect f).attempt = a.attempt.map (redirect f) := by
  cases a with
  | alloc mode | allocUsable mode | allocZeroed mode | allocZeroedUsable mode
  | allocZeroedArray mode | allocAligned mode | realloc mode | reallocUsable mode =>
    cases mode <;> rfl
  | _ => rfl

theorem excuse_redirect : (a.redirect f).excuse = a.excuse := by
  cases a with
  | realloc mode ptr size | reallocUsable mode ptr size => cases mode <;> cases size <;> rfl
  | _ => rfl

theorem demand_redirect (maxAlign : Nat) :
    (a.redirect f).demand maxAlign = (a.demand maxAlign).map (Demand.redirect f) := by
  have horder : ∀ o : Option Order,
      o.map Demand.order = (o.map Demand.order).map (Demand.redirect f) := by
    intro o
    cases o <;> rfl
  have hresized : ∀ p n,
      Demand.resized (f p) n = (Demand.resized p n).map (Demand.redirect f) := fun p n =>
    (apply_ite (Option.map (Demand.redirect f)) _ none (some (.resize p n))).symm
  cases a with
  | realloc mode ptr size | reallocUsable mode ptr size =>
    cases ptr with
    | none => exact horder _
    | some p => exact hresized p size
  | layoutRealloc ptr layout size =>
    show (Layout.of? size layout.align).bind (Demand.ofLayout maxAlign (ptr.map f)) =
      ((Layout.of? size layout.align).bind (Demand.ofLayout maxAlign ptr)).map (Demand.redirect f)
    rw [Option.map_bind]
    apply congrArg (Option.bind (Layout.of? size layout.align))
    funext new
    show Demand.ofLayout maxAlign (ptr.map f) new =
      (Demand.ofLayout maxAlign ptr new).map (Demand.redirect f)
    unfold Demand.ofLayout
    cases new.plainSize maxAlign with
    | none => exact horder _
    | some plain =>
      cases ptr with
      | none => exact horder _
      | some p => exact hresized p plain
  | alloc | allocUsable | allocZeroed | allocZeroedUsable | allocZeroedArray | allocAligned
  | dupString | layoutAlloc | layoutAllocZeroed => exact horder _
  | _ => rfl

theorem idle_redirect (w : Nat) (x : Header) (handler : OomHandler) :
    (a.redirect f).idle w x handler = a.idle w x handler := by
  cases a with
  | realloc mode ptr size | reallocUsable mode ptr size => cases ptr <;> cases size <;> rfl
  | freeWithSize ptr usable => cases ptr <;> rfl
  | _ => rfl

theorem frees_redirect (w : Nat) (x : Header) :
    (a.redirect f).frees w x = (a.frees w x).map (Request.redirect f) := by
  cases a with
  | freeWithSize ptr usable =>
    cases ptr with
    | none => rfl
    | some p =>
      unfold frees redirect
      simp only [Option.map_some]
      rw [apply_ite (List.map (Request.redirect f))]
      rfl
  | free ptr | realloc mode ptr size | reallocUsable mode ptr size | layoutFree ptr layout =>
    cases ptr <;> rfl
  | _ => rfl

theorem success_redirect (n : Nat) : (a.redirect f).success n = a.success n := by
  cases a <;> rfl

theorem refusal_redirect : (a.redirect f).refusal = a.refusal := by
  cases a <;> rfl

theorem content_redirect (maxAlign : Nat) (old : Nat → Option UInt8) (i : Nat) :
    (a.redirect f).content maxAlign old i = a.content maxAlign old i := by
  cases a with
  | realloc mode ptr size | reallocUsable mode ptr size | layoutRealloc ptr layout size =>
    cases ptr <;> rfl
  | _ => rfl

theorem verdicts_redirect (maxAlign : Nat) (granted : Bool) :
    (a.redirect f).verdicts maxAlign granted = a.verdicts maxAlign granted := by
  unfold verdicts
  rw [demand_redirect]
  cases a.demand maxAlign with
  | none => rfl
  | some y =>
    simp only [Option.map_some]
    rw [y.header_redirect]

/-- The same but for the requests, which are about the other pointers. -/
theorem foreseen_redirect (maxAlign : Nat) (x : Header) (handler : OomHandler) (granted : Bool) :
    (a.redirect f).foreseen maxAlign x handler granted =
      { a.foreseen maxAlign x handler granted with
        requests := (a.foreseen maxAlign x handler granted).requests.map (Request.redirect f) } := by
  unfold foreseen
  simp only
  rw [demand_redirect]
  cases a.demand maxAlign with
  | none =>
    simp only [Option.map_none]
    rw [idle_redirect, frees_redirect]
  | some y =>
    simp only [Option.map_some]
    rw [y.header_redirect, y.request_redirect, pointer_redirect, y.trailing_redirect,
      success_redirect, refusal_redirect, ← Demand.size_header, y.header_redirect,
      Demand.size_header]
    cases granted with
    | true =>
      simp only [if_true, List.map_append]
      rw [apply_ite (List.map (Request.redirect f))]
      rfl
    | false =>
      simp only [Bool.false_eq_true, if_false]
      rw [apply_ite (List.map (Request.redirect f))]
      rfl

theorem pressed_redirect (handler : OomHandler) :
    (a.redirect f).pressed handler = a.pressed handler := by
  funext e
  unfold pressed
  rw [excuse_redirect]

/-- Pointers by other names come to the same by other names. -/
theorem forecast_redirect (maxAlign : Nat) (x : Header) (handler : OomHandler) (granted : Bool) :
    (a.redirect f).forecast maxAlign x handler granted =
      { a.forecast maxAlign x handler granted with
        requests := (a.forecast maxAlign x handler granted).requests.map (Request.redirect f) } := by
  unfold forecast
  rw [attempt_redirect]
  cases a.attempt with
  | none => exact foreseen_redirect f a maxAlign x handler granted
  | some t =>
    simp only [Option.map_some]
    unfold pressing
    rw [foreseen_redirect, pressed_redirect]

end Action

end HeapLedger
