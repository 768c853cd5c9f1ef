import HeapLedger.Proofs.Cloakroom

/-!
# `HeapLedger/Proofs/Placement.lean` — where blocks lie does not matter

The same errands are run at two cloakrooms, over backends that put blocks where they like and resize
them in place or not. As long as the one grants a request when the other does, nobody can tell them
apart: calls end the same, tickets have the same sizes and the same content, the counts agree, and
the backends are asked the same, up to the names of their blocks. Alignments beyond the backend's
own are where this could fail, as the pointer is then computed from an address.

Two runs stay in step because each stays with one forecast (`Sound.called`): at both cloakrooms the
same headers are behind the same tickets (`Twins`), and that is all that a forecast looks at.
-/

set_option autoImplicit false

namespace HeapLedger

/-- The two lists agree where both reach. -/
def Concur (verdicts₁ verdicts₂ : List Bool) : Prop :=
  ∀ (k : Nat) (x y : Bool), verdicts₁[k]? = some x → verdicts₂[k]? = some y → x = y

namespace Concur

variable {v v₁ v₂ w₁ w₂ : List Bool}

theorem left (h : Concur (v₁ ++ w₁) (v₂ ++ w₂)) : Concur v₁ v₂ := by
  intro k x y hx hy
  have hlt₁ := (List.getElem?_eq_some_iff.1 hx).1
  have hlt₂ := (List.getElem?_eq_some_iff.1 hy).1
  apply h k x y
  · rw [List.getElem?_append_left hlt₁, hx]
  · rw [List.getElem?_append_left hlt₂, hy]

theorem right (h : Concur (v ++ w₁) (v ++ w₂)) : Concur w₁ w₂ := by
  intro k x y hx hy
  apply h (v.length + k) x y
  · rw [List.getElem?_append_right (Nat.le_add_right _ _), Nat.add_sub_cancel_left, hx]
  · rw [List.getElem?_append_right (Nat.le_add_right _ _), Nat.add_sub_cancel_left, hy]

end Concur

namespace Ending

/-- Without its pointers an ending still says whether one comes. -/
theorem came_veiled {γ : Type} (z : γ) (e : Ending) :
    (came (e.veiled.map (Reply.map fun _ => 0))).map (fun _ => z) = e.came.map fun _ => z := by
  cases e with
  | error halt => rfl
  | ok r =>
    cases r with
    | pointer ptr | sized ptr usable => cases ptr <;> rfl
    | _ => rfl

theorem came_congr {γ : Type} {e e' : Ending} (h : e.veiled = e'.veiled) (z : γ) :
    e.came.map (fun _ => z) = e'.came.map fun _ => z := by
  rw [← came_veiled, h, came_veiled]

end Ending

namespace Action

variable {a : Action}

/-- Without its pointers an ending still says what is given up. -/
theorem gone_veiled (a : Action) (e : Ending) :
    a.gone (e.veiled.map (Reply.map fun _ => 0)) = a.gone e := by
  cases e with
  | error halt => rfl
  | ok r =>
    cases r with
    | pointer ptr | sized ptr usable => cases ptr <;> rfl
    | _ => rfl

theorem gone_congr {e e' : Ending} (h : e.veiled = e'.veiled) : a.gone e = a.gone e' := by
  rw [← a.gone_veiled, h, a.gone_veiled]

/-- Where the answer shows, there is only one. -/
theorem granted_eq {maxAlign : Nat} {granted granted' : Bool}
    (hfits : granted = true → a.verdicts maxAlign true = [true])
    (hfits' : granted' = true → a.verdicts maxAlign true = [true])
    (h : Concur (a.verdicts maxAlign granted) (a.verdicts maxAlign granted')) :
    granted = granted' := by
  have hshows : a.verdicts maxAlign true = [true] → ∀ g, a.verdicts maxAlign g = [g] := by
    intro htrue g
    unfold verdicts at htrue ⊢
    split at htrue
    · cases htrue
    · split at htrue
      · rename_i hlim
        exact if_pos hlim
      · cases htrue
  have hfirst : a.verdicts maxAlign true = [true] → granted = granted' := by
    intro htrue
    rw [hshows htrue, hshows htrue] at h
    exact h 0 granted granted' rfl rfl
  cases granted with
  | true => exact hfirst (hfits rfl)
  | false =>
    cases granted' with
    | true => exact hfirst (hfits' rfl)
    | false => rfl

end Action

namespace Cloakroom

variable {β₁ β₂ : Type} {b₁ : Backend β₁} {b₂ : Backend β₂} {c₁ : b₁.Contract Lease.Admits}
  {c₂ : b₂.Contract Lease.Admits} {host : Host} {r₁ : Cloakroom β₁} {r₂ : Cloakroom β₂}

/-- What the holder of a ticket finds: the sizes of the block, and the bytes that were put there. -/
structure Finds {β : Type} (b : Backend β) (r : Cloakroom β) (t usable size : Nat)
    (known : Nat → Option UInt8) : Prop where
  usableSize : Ledger.usableSize (.headered b) (r.pointer t) r.desk.ledger =
    .ok usable r.desk.ledger
  allocationSize : Ledger.allocationSize (.headered b) (r.pointer t) r.desk.ledger =
    .ok size r.desk.ledger
  content : r.desk.ledger.heap.memory.Knows (r.pointer t) known

/-- Nobody can tell the two cloakrooms apart, and tickets are one for one with blocks at both. -/
structure Alike (c₁ : b₁.Contract Lease.Admits) (c₂ : b₂.Contract Lease.Admits)
    (r₁ : Cloakroom β₁) (r₂ : Cloakroom β₂) : Prop where
  tickets : ∀ t, (r₁.tickets t).isSome = (r₂.tickets t).isSome
  known : r₁.known = r₂.known
  finds : ∀ t, (r₁.tickets t).isSome → ∃ usable size,
    r₁.Finds b₁ t usable size (r₁.known t) ∧ r₂.Finds b₂ t usable size (r₁.known t)
  usedMemory : r₁.desk.ledger.usedMemory = r₂.desk.ledger.usedMemory
  injOn₁ : Set.InjOn (r₁.raw b₁ c₁) {t | (r₁.tickets t).isSome}
  injOn₂ : Set.InjOn (r₂.raw b₂ c₂) {t | (r₂.tickets t).isSome}

/-- The errand is answered the same at both cloakrooms, and the backends are asked the same about
the blocks of tickets that are out. -/
def SameErrand (c₁ : b₁.Contract Lease.Admits) (c₂ : b₂.Contract Lease.Admits) (host : Host)
    (r₁ : Cloakroom β₁) (r₂ : Cloakroom β₂) (e : Errand) : Prop :=
  (∀ a, e = .call a → (r₁.ending b₁ host a).veiled = (r₂.ending b₂ host a).veiled) ∧
    ∃ requests : List Request,
      (∀ q ∈ requests, ∀ t ∈ q.pointer?, (r₁.tickets t).isSome) ∧
      r₁.asks b₁ host e = requests.map (Request.redirect (r₁.raw b₁ c₁)) ∧
      r₂.asks b₂ host e = requests.map (Request.redirect (r₂.raw b₂ c₂))

/-- Errand by errand it is the same at both cloakrooms. -/
def InStep (c₁ : b₁.Contract Lease.Admits) (c₂ : b₂.Contract Lease.Admits) (host : Host) :
    Cloakroom β₁ → Cloakroom β₂ → List Errand → Prop
  | r₁, r₂, [] => Alike c₁ c₂ r₁ r₂
  | r₁, r₂, e :: es => Alike c₁ c₂ r₁ r₂ ∧ SameErrand c₁ c₂ host r₁ r₂ e ∧
      InStep c₁ c₂ host (r₁.after b₁ host e) (r₂.after b₂ host e) es

/-- The same headers are behind the same tickets, and the same is known of the blocks. -/
structure Twins (c₁ : b₁.Contract Lease.Admits) (c₂ : b₂.Contract Lease.Admits)
    (headers : Nat → Option Header) (r₁ : Cloakroom β₁) (r₂ : Cloakroom β₂) : Prop where
  sound₁ : ∃ hs, Sound c₁ hs headers r₁
  sound₂ : ∃ hs, Sound c₂ hs headers r₂
  issued : r₁.issued = r₂.issued
  known : r₁.known = r₂.known
  handler : r₁.desk.ledger.policy.current = r₂.desk.ledger.policy.current

variable {headers : Nat → Option Header}

open Strategy.Headered (width)

theorem Sound.finds {β : Type} {b : Backend β} {c : b.Contract Lease.Admits} {hs : Holdings}
    {r : Cloakroom β} {t : Nat} {x : Header} (h : Sound c hs headers r) (hx : headers t = some x) :
    r.Finds b t x.size (Header.cost (width b) x) (r.known t) := by
  obtain ⟨p, d, ht, -, -, -, hshows⟩ := h.behind t x hx
  obtain ⟨husable, hcost⟩ := h.sizes hx
  rw [← pointer_of_ticket ht] at hshows
  exact ⟨Ledger.usableSize_eq husable, Ledger.allocationSize_eq hcost, hshows.1⟩

namespace Twins

variable (h : Twins c₁ c₂ headers r₁ r₂)

include h

theorem taken (t : Nat) : (r₁.tickets t).isSome = (r₂.tickets t).isSome := by
  obtain ⟨_, h₁⟩ := h.sound₁
  obtain ⟨_, h₂⟩ := h.sound₂
  rw [h₁.taken, h₂.taken]

theorem alike (hmax : b₁.maxAlign = b₂.maxAlign) : Alike c₁ c₂ r₁ r₂ := by
  have hwidth : width b₁ = width b₂ := congrArg Header.width hmax
  obtain ⟨_, h₁⟩ := h.sound₁
  obtain ⟨_, h₂⟩ := h.sound₂
  refine ⟨h.taken, h.known, fun t ht => ?_, ?_, h₁.raw_injOn, h₂.raw_injOn⟩
  · rw [h₁.taken] at ht
    obtain ⟨x, hx⟩ := Option.isSome_iff_exists.1 ht
    refine ⟨x.size, Header.cost (width b₁) x, h₁.finds hx, ?_⟩
    rw [hwidth, h.known]
    exact h₂.finds hx
  · rw [h₁.used, h₂.used, hwidth, h.issued]

theorem allows {e : Errand} (ha : r₁.Allows b₁ e) : r₂.Allows b₂ e := by
  have hsize : ∀ {t n}, (r₁.tickets t).isSome →
      (∃ usable, (Strategy.headered b₁).usableSize (r₁.pointer t) r₁.desk.ledger.heap =
        .ok usable ∧ n ≤ usable) →
      ∃ usable, (Strategy.headered b₂).usableSize (r₂.pointer t) r₂.desk.ledger.heap =
        .ok usable ∧ n ≤ usable := by
    rintro t n ht ⟨usable, hread, hle⟩
    obtain ⟨_, h₁⟩ := h.sound₁
    obtain ⟨_, h₂⟩ := h.sound₂
    rw [h₁.taken] at ht
    obtain ⟨x, hx⟩ := Option.isSome_iff_exists.1 ht
    rw [(h₁.sizes hx).1] at hread
    cases hread
    exact ⟨x.size, (h₂.sizes hx).1, hle⟩
  cases e with
  | call a =>
    obtain ⟨hbooked, hadvise, hout, hlayout⟩ := ha
    refine ⟨hbooked, hadvise, fun t ht => ?_, ?_⟩
    · rw [← h.taken]
      exact hout t ht
    · rintro t layout size rfl
      exact hsize (hout t rfl) (hlayout t layout size rfl)
  | write t offset bytes =>
    refine ⟨?_, hsize ha.1 ha.2⟩
    rw [← h.taken]
    exact ha.1
  | switch thread | claim thread | retire thread => trivial

section Steps

variable (hhost : host.Confined)

include hhost

/-- A call finds the same headers and comes to the same forecast. -/
theorem called (hmax : b₁.maxAlign = b₂.maxAlign) (hp₁ : c₁.Preserves Lease.asked)
    (hp₂ : c₂.Preserves Lease.asked) (hz₁ : c₁.Zeroes) (hz₂ : c₂.Zeroes) {a : Action}
    (ha : r₁.Allows b₁ (.call a))
    (hconcur : Concur (r₁.verdicts b₁ host (.call a)) (r₂.verdicts b₂ host (.call a))) :
    SameErrand c₁ c₂ host r₁ r₂ (.call a) ∧
      r₁.verdicts b₁ host (.call a) = r₂.verdicts b₂ host (.call a) ∧
      ∃ headers, Twins c₁ c₂ headers (r₁.after b₁ host (.call a)) (r₂.after b₂ host (.call a)) := by
  obtain ⟨_, h₁⟩ := h.sound₁
  obtain ⟨_, h₂⟩ := h.sound₂
  obtain ⟨granted, d₁⟩ := h₁.called hp₁ hz₁ hhost ha
  obtain ⟨granted', d₂⟩ := h₂.called hp₂ hz₂ hhost (h.allows ha)
  rw [← hmax, ← h.handler] at d₂
  have hverdicts₂ := d₂.verdicts
  have hfits₂ := d₂.fits
  rw [← hmax] at hverdicts₂ hfits₂
  obtain rfl : granted = granted' := by
    rw [d₁.verdicts, hverdicts₂] at hconcur
    exact Action.granted_eq d₁.fits hfits₂ hconcur
  have hending := d₁.ending.trans d₂.ending.symm
  refine ⟨⟨?_, _, ?_, d₁.asks, d₂.asks⟩, d₁.verdicts.trans hverdicts₂.symm, ?_⟩
  · rintro _ ⟨⟩
    exact hending
  · intro q hq t ht
    exact ha.2.2.1 t (Action.pointer_of_forecast hq ht)
  · refine ⟨_, d₁.sound, ?_, congrArg (· + 1) h.issued, ?_, ?_⟩
    · rw [Action.gone_congr hending, Ending.came_congr hending, h.issued]
      exact d₂.sound
    · show Function.update r₁.known r₁.issued (a.content b₁.maxAlign (r₁.content a)) =
        Function.update r₂.known r₂.issued (a.content b₂.maxAlign (r₂.content a))
      unfold content
      rw [h.known, h.issued, hmax]
    · rw [handler_called, handler_called, h.handler]

/-- All other errands are nothing to the backends. -/
theorem moved {e : Errand} (hcall : ∀ a, e ≠ .call a) (ha : r₁.Allows b₁ e) :
    SameErrand c₁ c₂ host r₁ r₂ e ∧ r₁.verdicts b₁ host e = r₂.verdicts b₂ host e ∧
      Twins c₁ c₂ headers (r₁.after b₁ host e) (r₂.after b₂ host e) := by
  obtain ⟨_, h₁⟩ := h.sound₁
  obtain ⟨_, h₂⟩ := h.sound₂
  obtain ⟨hsound₁, hpolicy₁⟩ := h₁.moved hhost hcall ha
  obtain ⟨hsound₂, hpolicy₂⟩ := h₂.moved hhost hcall (h.allows ha)
  have hhandler : (r₁.after b₁ host e).desk.ledger.policy.current =
      (r₂.after b₂ host e).desk.ledger.policy.current := by
    rw [hpolicy₁, hpolicy₂]
    exact h.handler
  cases e with
  | call a => exact absurd rfl (hcall a)
  | write t offset bytes =>
    refine ⟨⟨(fun a ha => nomatch ha), [], (fun _ hq => nomatch hq), rfl, rfl⟩, rfl,
      hsound₁, hsound₂, h.issued, ?_, hhandler⟩
    show Function.update r₁.known t (written offset bytes (r₁.known t)) =
      Function.update r₂.known t (written offset bytes (r₂.known t))
    rw [h.known]
  | switch thread | claim thread | retire thread =>
    exact ⟨⟨(fun a ha => nomatch ha), [], (fun _ hq => nomatch hq), rfl, rfl⟩, rfl,
      hsound₁, hsound₂, h.issued, h.known, hhandler⟩

end Steps

end Twins

variable {es : List Errand}

/-- Twins stay in step as long as their backends concur. -/
theorem Twins.inStep (h : Twins c₁ c₂ headers r₁ r₂) (hp₁ : c₁.Preserves Lease.asked)
    (hp₂ : c₂.Preserves Lease.asked) (hz₁ : c₁.Zeroes) (hz₂ : c₂.Zeroes)
    (hmax : b₁.maxAlign = b₂.maxAlign) (hhost : host.Confined) (hes : Lawful b₁ host r₁ es)
    (hconcur : Concur (allVerdicts b₁ host r₁ es) (allVerdicts b₂ host r₂ es)) :
    Lawful b₂ host r₂ es ∧ InStep c₁ c₂ host r₁ r₂ es := by
  induction es generalizing headers r₁ r₂ with
  | nil => exact ⟨trivial, h.alike hmax⟩
  | cons e es ih =>
    obtain ⟨ha, hes⟩ := hes
    obtain ⟨hsame, hverdicts, headers', h'⟩ : SameErrand c₁ c₂ host r₁ r₂ e ∧
        r₁.verdicts b₁ host e = r₂.verdicts b₂ host e ∧
        ∃ headers', Twins c₁ c₂ headers' (r₁.after b₁ host e) (r₂.after b₂ host e) := by
      by_cases hcall : ∃ a, e = .call a
      · obtain ⟨a, rfl⟩ := hcall
        exact h.called hhost hmax hp₁ hp₂ hz₁ hz₂ ha hconcur.left
      · obtain ⟨hsame, hverdicts, h'⟩ := h.moved hhost (fun a he => hcall ⟨a, he⟩) ha
        exact ⟨hsame, hverdicts, headers, h'⟩
    have hrest : Concur (allVerdicts b₁ host (r₁.after b₁ host e) es)
        (allVerdicts b₂ host (r₂.after b₂ host e) es) := by
      unfold allVerdicts at hconcur
      rw [hverdicts] at hconcur
      exact hconcur.right
    obtain ⟨hlawful, hstep⟩ := ih h' hes hrest
    exact ⟨⟨h.allows ha, hlawful⟩, h.alike hmax, hsame, hstep⟩

/-- Lawful errands at two cloakrooms, over backends that have the same alignment and grant the same
requests, are in step. They are lawful at the one if they are at the other; at every point the same
tickets are out and have the same sizes and content, and the counts agree; every call ends the same;
and what the backends are asked is the same requests about the blocks behind the same tickets. -/
theorem placement_immaterial (hp₁ : c₁.Preserves Lease.asked) (hp₂ : c₂.Preserves Lease.asked)
    (hz₁ : c₁.Zeroes) (hz₂ : c₂.Zeroes) (hmax : b₁.maxAlign = b₂.maxAlign)
    (hhost : host.Confined) {heap₁ : Heap β₁} {heap₂ : Heap β₂} (hheap₁ : c₁.valid heap₁)
    (hheap₂ : c₂.valid heap₂) (slots : Nat) (hes : Lawful b₁ host (opening heap₁ slots) es)
    (hconcur : Concur (allVerdicts b₁ host (opening heap₁ slots) es)
      (allVerdicts b₂ host (opening heap₂ slots) es)) :
    Lawful b₂ host (opening heap₂ slots) es ∧
      InStep c₁ c₂ host (opening heap₁ slots) (opening heap₂ slots) es := by
  have htwins : Twins c₁ c₂ (fun _ => none) (opening heap₁ slots) (opening heap₂ slots) :=
    ⟨⟨_, sound_opening hheap₁ slots⟩, ⟨_, sound_opening hheap₂ slots⟩, rfl, rfl, rfl⟩
  exact htwins.inStep hp₁ hp₂ hz₁ hz₂ hmax hhost hes hconcur

/-- A zeroed block is written to and resized, and one at a multiple of 64 comes and goes. -/
def placementErrands : List Errand :=
  [.call (.allocZeroed .attempt 5), .write 0 1 #[7, 8], .call (.allocAligned .orFail 10 64),
    .call (.realloc .attempt (some 0) 40), .call (.free (some 1))]

/-- Two arenas, of which the second begins 40 bytes later and moves every block that it resizes. -/
theorem placement_immaterial_arenas :
    let b₁ := (Arena.full {}).toBackend
    let b₂ := (Arena.full { start := 40, alwaysMove := true }).toBackend
    let c₁ := (Arena.fullContract Arena.honest_default).toContract
    let c₂ := (Arena.fullContract (Arena.honest_default.moving.starting 40)).toContract
    let r₁ : Cloakroom Arena := opening Desk.arenaHeap 4
    let r₂ : Cloakroom Arena := opening ⟨Arena.freshMemory, .new { start := 40 }⟩ 4
    allVerdicts b₁ .unsupported r₁ placementErrands = [true, true, true] ∧
      (r₁.after b₁ .unsupported (.call (.allocZeroed .attempt 5))).pointer 0 = Arena.base + 16 ∧
      (r₂.after b₂ .unsupported (.call (.allocZeroed .attempt 5))).pointer 0 = Arena.base + 64 ∧
      InStep c₁ c₂ .unsupported r₁ r₂ placementErrands := by
  intro b₁ b₂ c₁ c₂ r₁ r₂
  have hverdicts₁ : allVerdicts b₁ .unsupported r₁ placementErrands = [true, true, true] := by
    decide +kernel
  have hverdicts₂ : allVerdicts b₂ .unsupported r₂ placementErrands = [true, true, true] := by
    decide +kernel
  have hlawful : Lawful b₁ .unsupported r₁ placementErrands := by
    refine ⟨⟨rfl, (fun _ _ h => nomatch h), ?_, fun _ _ _ h => nomatch h⟩, ⟨?_, 5, ?_, ?_⟩,
      ⟨rfl, (fun _ _ h => nomatch h), ?_, fun _ _ _ h => nomatch h⟩,
      ⟨rfl, (fun _ _ h => nomatch h), ?_, fun _ _ _ h => nomatch h⟩,
      ⟨rfl, (fun _ _ h => nomatch h), ?_, fun _ _ _ h => nomatch h⟩, trivial⟩
    · decide
    · decide +kernel
    · decide +kernel
    · decide
    · decide
    · decide +kernel
    · decide +kernel
  refine ⟨hverdicts₁, by decide +kernel, by decide +kernel, ?_⟩
  have hconcur : Concur (allVerdicts b₁ .unsupported r₁ placementErrands)
      (allVerdicts b₂ .unsupported r₂ placementErrands) := by
    rw [hverdicts₁, hverdicts₂]
    exact fun _ _ _ hx hy => Option.some.inj (hx.symm.trans hy)
  have hkeeps₁ : c₁.Preserves Lease.asked := (Arena.fullContract_preserves _ rfl).asked
  have hkeeps₂ : c₂.Preserves Lease.asked := (Arena.fullContract_preserves _ rfl).asked
  have hzeroes₁ : c₁.Zeroes := Arena.fullContract_zeroes _ rfl
  have hzeroes₂ : c₂.Zeroes := Arena.fullContract_zeroes _ rfl
  have hvalid : c₂.valid ⟨Arena.freshMemory, .new { start := 40 }⟩ := Arena.orderly_new _
  exact (placement_immaterial hkeeps₁ hkeeps₂ hzeroes₁ hzeroes₂ rfl Host.confined_unsupported
    Desk.arenaHeap_valid hvalid 4 hlawful hconcur).2

end Cloakroom

end HeapLedger
