import RedNodeBus.Ranging.Spi

/-!
# Transfers are exclusive

The lock is `spi_busy`, and it protects all of the driver.  Only `readfromspi` and
`writetospi` take it; the other calls test it and, finding it free, go on without it.
That is enough here: a call that preempts an admitted transfer begins with the test, and
a call that has passed the test earlier is below the transfer on the stack and waits.

`spiDiscipline` checks every statement of every function against the lock, and the rules
of the library give `transfers_exclusive`: no other call touches the driver during an
admitted transfer, what is seen on the bus is whole windows and events between them, and
CS is inactive when the transfer clears `spi_busy`.  Between that and its return another
call may come, and leave CS active (`cs_active_on_exit`).
-/

namespace RedNodeBus.Ranging

/-- An admitted transfer, from setting `spi_busy` to clearing it. -/
def Frame.owns : Frame → Bool
  | .transfer .enableIrq _ _ | .transfer .csOn _ _ | .transfer .header _ _
  | .transfer .body _ _ | .transfer .csOff _ _ | .transfer .clearBusy _ _ => true
  | _ => false

/-- A transfer that has not been admitted. -/
def Frame.notAdmitted : Frame → Bool
  | .transfer .disableIrq _ _ | .transfer .testInitialized _ _ | .transfer .testBusy _ _
  | .transfer .enableIrqRejected _ _ => true
  | _ => false

/-- A call that has not passed its test of `spi_busy`. -/
def Frame.barred : Frame → Bool
  | .openspi .testBusy _ | .closespi .testBusy => true
  | .setSpiSpeed .testInitialized _ | .setSpiSpeed .testBusy _ => true
  | .setCs .testInitialized _ | .setCs .testBusy _ => true
  | f => f.notAdmitted

/-! ## The window of a transfer -/

/-- What an admitted transfer does on the bus, given how its two stages end. -/
def csWindow (t : Transfer) (header body : Bool) : List SpiMark :=
  [.acquired t, .bus (.cs true), .bus (.xfer t.header header)] ++
    (if header then [.bus (.xfer t.body body)] else []) ++ [.bus (.cs false), .released]

/-- Whole windows, and events between them. -/
inductive Windows : List SpiMark → Prop
  | nil : Windows []
  | between {marks : List SpiMark} (e : BusEvent) (h : Windows marks) :
      Windows (marks ++ [.bus e])
  | window {marks : List SpiMark} (t : Transfer) (header body : Bool) (h : Windows marks) :
      Windows (marks ++ csWindow t header body)

/-- What the owner has done of its window, and where CS is. -/
def Inside (spi : Spi) (w : List SpiMark) : Frame → Prop
  | .transfer .enableIrq t _ | .transfer .csOn t _ => w = [.acquired t]
  | .transfer .header t _ => w = [.acquired t, .bus (.cs true)] ∧ spi.cs.level = true
  | .transfer .body t _ =>
    w = [.acquired t, .bus (.cs true), .bus (.xfer t.header true)] ∧ spi.cs.level = true
  | .transfer .csOff t _ =>
    (∃ header body, w ++ [.bus (.cs false), .released] = csWindow t header body) ∧
      spi.cs.level = true
  | .transfer .clearBusy t _ =>
    (∃ header body, w ++ [.released] = csWindow t header body) ∧ spi.cs.level = false
  | _ => False

/-- `spi_busy`, over the driver. -/
def spiLock : Lock Shared Frame SpiMark Spi where
  view := Shared.spi
  locked := Spi.spiBusy
  owns := Frame.owns
  barred := Frame.barred
  whole := Windows
  inside := fun f spi w => Inside spi w f

/-! ## The discipline -/

variable {board : Board} {o : BusOutcome} {s : Shared} {h w : List SpiMark}

theorem not_owns_of_barred {f : Frame} (hf : f.barred = true) : f.owns = false := by
  cases f with
  | transfer pc t returned => cases pc <;> first | rfl | cases hf
  | _ => rfl

/-- A statement that leaves the lock free and is not one of a transfer's window. -/
theorem settled_between {r : (Frame ⊕ Returned) × Shared} {m : Option SpiMark}
    (hw : Windows h) (hb : r.2.spi.spiBusy = false) (hf : ∀ f, r.1 = .inl f → f.owns = false)
    (hm : ∀ x, m = some x → ∃ e, x = .bus e) : spiLock.Settled h m.toList r := by
  have hwhole : Windows (h ++ m.toList) := by
    cases m with
    | none => rwa [Option.toList_none, List.append_nil]
    | some x =>
      obtain ⟨e, rfl⟩ := hm x rfl
      exact .between e hw
  obtain ⟨f | r, s⟩ := r
  · have hown : f.owns = false := hf f rfl
    refine ⟨hown.trans hb.symm, ?_, fun _ => hwhole⟩
    intro h
    exact absurd (hown.symm.trans h) (by decide)
  · exact ⟨hb, hwhole⟩

/-- A call that is no transfer leaves `spi_busy` alone. -/
theorem settled_other {f : Frame} (hf : ∀ pc t returned, f ≠ .transfer pc t returned)
    (hb : s.spi.spiBusy = false) (hw : Windows h) :
    spiLock.Settled h (f.emit o s).toList (s.exec board o f) := by
  cases f with
  | transfer pc t returned => exact absurd rfl (hf pc t returned)
  | openspi pc config =>
    refine settled_between hw ?_ ?_ ?_
    · cases pc <;> simp only [Shared.exec, Shared.execOpenspi] <;> (try split) <;> exact hb
    · intro f hf
      cases pc <;> simp only [Shared.exec, Shared.execOpenspi] at hf <;> (try split at hf) <;>
        cases hf <;> rfl
    · intro x hx
      cases pc <;> simp only [Frame.emit] at hx <;> (try split at hx) <;> cases hx <;>
        exact ⟨_, rfl⟩
  | setSpiSpeed pc i =>
    refine settled_between hw ?_ ?_ ?_
    · cases pc <;> simp only [Shared.exec, Shared.execSetSpiSpeed] <;> (try split) <;> exact hb
    · intro f hf
      cases pc <;> simp only [Shared.exec, Shared.execSetSpiSpeed] at hf <;> (try split at hf) <;>
        cases hf <;> rfl
    · intro x hx
      cases pc <;> cases hx
      exact ⟨_, rfl⟩
  | closespi pc =>
    refine settled_between hw ?_ ?_ ?_
    · cases pc <;> simp only [Shared.exec, Shared.execClosespi] <;> (try split) <;> exact hb
    · intro f hf
      cases pc <;> simp only [Shared.exec, Shared.execClosespi] at hf <;> (try split at hf) <;>
        cases hf <;> rfl
    · intro x hx
      cases pc <;> cases hx <;> exact ⟨_, rfl⟩
  | setCs pc on =>
    refine settled_between hw ?_ ?_ ?_
    · cases pc <;> simp only [Shared.exec, Shared.execSetCs] <;> (try split) <;> exact hb
    · intro f hf
      cases pc <;> simp only [Shared.exec, Shared.execSetCs] at hf <;> (try split at hf) <;>
        cases hf <;> rfl
    · intro x hx
      cases pc <;> cases hx
      exact ⟨_, rfl⟩

theorem settled_outside {pc : TransferAt} {t : Transfer} {returned : Returned}
    (hf : (Frame.transfer pc t returned).owns = false) (hb : s.spi.spiBusy = false)
    (hw : Windows h) :
    spiLock.Settled h ((Frame.transfer pc t returned).emit o s).toList
      (s.exec board o (.transfer pc t returned)) := by
  cases pc with
  | disableIrq =>
    exact settled_between hw hb (by rintro _ ⟨⟩; rfl) (by rintro _ ⟨⟩)
  | testInitialized | testBusy =>
    refine settled_between hw ?_ ?_ (by rintro _ ⟨⟩)
    · simp only [Shared.exec, Shared.execTransfer]
      split <;> exact hb
    · intro f hf
      simp only [Shared.exec, Shared.execTransfer] at hf
      split at hf <;> cases hf <;> rfl
  | enableIrqRejected | ret => exact settled_between hw hb (by rintro _ ⟨⟩) (by rintro _ ⟨⟩)
  | setBusy => exact ⟨rfl, fun _ => rfl, fun h => by cases h⟩
  | enableIrq | csOn | header | body | csOff | clearBusy => cases hf

theorem settled_inside {f : Frame} (hf : f.owns = true) (hb : s.spi.spiBusy = true)
    (hw : Windows h) (hi : Inside s.spi w f) :
    spiLock.Settled h (w ++ (f.emit o s).toList) (s.exec board o f) := by
  cases f with
  | openspi pc config | setSpiSpeed pc i | closespi pc | setCs pc on => cases hf
  | transfer pc t returned =>
    cases pc with
    | disableIrq | testInitialized | testBusy | enableIrqRejected | setBusy | ret => cases hf
    | enableIrq =>
      obtain rfl : w = [.acquired t] := hi
      exact ⟨hb.symm, fun _ => rfl, fun h => by cases h⟩
    | csOn =>
      obtain rfl : w = [.acquired t] := hi
      exact ⟨hb.symm, fun _ => ⟨rfl, rfl⟩, fun h => by cases h⟩
    | header =>
      obtain ⟨rfl, hcs⟩ := hi
      cases ho : o.success with
      | true =>
        simp only [Shared.exec, Shared.execTransfer, Frame.emit, ho]
        exact ⟨hb.symm, fun _ => ⟨rfl, hcs⟩, fun h => by cases h⟩
      | false =>
        simp only [Shared.exec, Shared.execTransfer, Frame.emit, ho]
        exact ⟨hb.symm, fun _ => ⟨⟨false, false, rfl⟩, hcs⟩, fun h => by cases h⟩
    | body =>
      obtain ⟨rfl, hcs⟩ := hi
      exact ⟨hb.symm, fun _ => ⟨⟨true, o.success, rfl⟩, hcs⟩, fun h => by cases h⟩
    | csOff =>
      obtain ⟨⟨header, body, he⟩, -⟩ := hi
      refine ⟨hb.symm, fun _ => ⟨⟨header, body, ?_⟩, rfl⟩, fun h => by cases h⟩
      rw [← he, List.append_assoc]
      rfl
    | clearBusy =>
      obtain ⟨⟨header, body, he⟩, -⟩ := hi
      refine ⟨rfl, fun h => (by cases h), fun _ => ?_⟩
      simp only [Frame.emit, Option.toList_some, he]
      exact .window t header body hw

/-- A call that has begun during a transfer finds `spi_busy` set and leaves. -/
theorem barred_exec {f : Frame} (hf : f.barred = true) (hb : s.spi.spiBusy = true) :
    (s.exec board o f).2.spi = s.spi ∧ f.emit o s = none ∧
      ∀ f', (s.exec board o f).1 = .inl f' → f'.barred = true := by
  cases f with
  | openspi pc config =>
    cases pc with
    | testBusy => simp [Shared.exec, Shared.execOpenspi, Shared.returns, Frame.emit, hb]
    | _ => cases hf
  | closespi pc =>
    cases pc with
    | testBusy => simp [Shared.exec, Shared.execClosespi, Shared.returns, Frame.emit, hb]
    | _ => cases hf
  | setSpiSpeed pc i =>
    cases pc with
    | testInitialized =>
      cases hi : s.spi.spiInitialized <;>
        simp [Shared.exec, Shared.execSetSpiSpeed, Shared.returns, Shared.goOn, Frame.emit,
          Frame.barred, hi]
    | testBusy => simp [Shared.exec, Shared.execSetSpiSpeed, Shared.returns, Frame.emit, hb]
    | _ => cases hf
  | setCs pc on =>
    cases pc with
    | testInitialized =>
      cases hi : s.spi.spiInitialized <;>
        simp [Shared.exec, Shared.execSetCs, Shared.returns, Shared.goOn, Frame.emit,
          Frame.barred, hi]
    | testBusy => simp [Shared.exec, Shared.execSetCs, Shared.returns, Frame.emit, hb]
    | _ => cases hf
  | transfer pc t returned =>
    cases pc with
    | disableIrq =>
      simp [Shared.exec, Shared.execTransfer, Shared.goOn, Frame.emit, Frame.barred,
        Frame.notAdmitted]
    | testInitialized =>
      cases hi : s.spi.spiInitialized <;>
        simp [Shared.exec, Shared.execTransfer, Shared.goOn, Frame.emit, Frame.barred,
          Frame.notAdmitted, hi]
    | testBusy =>
      simp [Shared.exec, Shared.execTransfer, Shared.goOn, Frame.emit, Frame.barred,
        Frame.notAdmitted, hb]
    | enableIrqRejected => simp [Shared.exec, Shared.execTransfer, Shared.returns, Frame.emit]
    | _ => cases hf

/-- **Every statement respects `spi_busy`.** -/
theorem spiDiscipline (board : Board) : spiLock.Discipline (spiProgram board) where
  barred_of_enter := by
    intro k s f hf
    simp only [spiProgram, SpiCall.enter] at hf
    split at hf
    · obtain rfl := Option.some.inj hf
      cases k <;> rfl
    · cases hf
  not_owns_of_barred := not_owns_of_barred
  free := by
    intro o f s h hf hb hw
    show spiLock.Settled h (f.emit o s).toList (s.exec board o f)
    cases f with
    | transfer pc t returned => exact settled_outside hf hb hw
    | _ => exact settled_other (by rintro _ _ _ ⟨⟩) hb hw
  own := settled_inside
  bar := barred_exec

/-! ## Every run -/

/-- What a step keeps to: while some call has an admitted transfer, no other call
touches the driver or the bus; a transfer that is not admitted does neither and returns
`-EIO`; and an admitted one does not return before it has cleared `spi_busy`, and CS is
inactive when it does. -/
def StepSafe (board : Board) (n : Nested Shared Frame) : NestedAct SpiCall BusOutcome → Prop
  | .call _ => True
  | .run o => ∀ f rest, n.stack = f :: rest →
      ((∃ g ∈ n.stack, g.owns = true) → f.owns = false →
        (n.shared.exec board o f).2.spi = n.shared.spi ∧ f.emit o n.shared = none) ∧
      (f.notAdmitted = true →
        (n.shared.exec board o f).2.spi = n.shared.spi ∧ f.emit o n.shared = none ∧
          ∀ r, (n.shared.exec board o f).1 = .inr r → r.ret = -eio) ∧
      (f.owns = true → ∃ f', (n.shared.exec board o f).1 = .inl f' ∧
        (f'.owns = false → (n.shared.exec board o f).2.spi.cs.level = false ∧
          (n.shared.exec board o f).2.spi.spiBusy = false))

/-- Whole windows and events between them, then, if a transfer is admitted, as much as it
has done of its window. -/
def OneWindow (busy : Bool) (marks : List SpiMark) : Prop :=
  ∃ done begun, marks = done ++ begun ∧ Windows done ∧ (busy = false → begun = []) ∧
    (busy = true → ∃ t header body rest, rest ≠ [] ∧ begun ++ rest = csWindow t header body)

theorem notAdmitted_exec {f : Frame} (hf : f.notAdmitted = true) :
    (s.exec board o f).2.spi = s.spi ∧ f.emit o s = none ∧
      ∀ r, (s.exec board o f).1 = .inr r → r.ret = -eio := by
  cases f with
  | openspi pc config | setSpiSpeed pc i | closespi pc | setCs pc on => cases hf
  | transfer pc t returned =>
    cases pc with
    | disableIrq => simp [Shared.exec, Shared.execTransfer, Shared.goOn, Frame.emit]
    | testInitialized =>
      cases hi : s.spi.spiInitialized <;>
        simp [Shared.exec, Shared.execTransfer, Shared.goOn, Frame.emit, hi]
    | testBusy =>
      cases hb : s.spi.spiBusy <;>
        simp [Shared.exec, Shared.execTransfer, Shared.goOn, Frame.emit, hb]
    | enableIrqRejected =>
      refine ⟨rfl, rfl, ?_⟩
      rintro r ⟨⟩
      rfl
    | _ => cases hf

/-- A statement of the window does not return, and leaves the window with CS inactive and
`spi_busy` clear. -/
theorem owns_exec {f : Frame} (hi : Inside s.spi w f) :
    ∃ f', (s.exec board o f).1 = .inl f' ∧
      (f'.owns = false → (s.exec board o f).2.spi.cs.level = false ∧
        (s.exec board o f).2.spi.spiBusy = false) := by
  cases f with
  | openspi pc config | setSpiSpeed pc i | closespi pc | setCs pc on => cases hi
  | transfer pc t returned =>
    cases pc with
    | enableIrq | csOn | body | csOff => exact ⟨_, rfl, fun h => by cases h⟩
    | header =>
      simp only [Shared.exec, Shared.execTransfer]
      split <;> exact ⟨_, rfl, fun h => by cases h⟩
    | clearBusy => exact ⟨_, rfl, fun _ => ⟨hi.2, rfl⟩⟩
    | _ => cases hi

theorem locked_of_owns {n : Nested Shared Frame} {g : Frame} (hI : spiLock.Inv h n)
    (hg : g ∈ n.stack) (howns : g.owns = true) : n.shared.spi.spiBusy = true := by
  cases hI with
  | free _ _ owns =>
    have : g.owns = false := owns g hg
    rw [howns] at this
    cases this
  | held _ _ _ _ _ locked => exact locked

theorem inside_of_owns {n : Nested Shared Frame} {f : Frame} {rest : List Frame}
    (hI : spiLock.Inv h n) (hstack : n.stack = f :: rest) (hf : f.owns = true) :
    ∃ w, Inside n.shared.spi w f := by
  cases hI with
  | free _ _ owns =>
    have : f.owns = false := owns f (by simp [hstack])
    rw [hf] at this
    cases this
  | held above owner below done w _ stack barred _ _ _ _ inside =>
    rw [hstack] at stack
    cases above with
    | nil =>
      obtain ⟨rfl, -⟩ := List.cons.inj stack
      exact ⟨w, inside⟩
    | cons g above =>
      obtain ⟨rfl, -⟩ := List.cons.inj stack
      have := not_owns_of_barred (barred f List.mem_cons_self)
      rw [hf] at this
      cases this

theorem stepSafe_of_inv {n : Nested Shared Frame} (hI : spiLock.Inv h n)
    (a : NestedAct SpiCall BusOutcome) : StepSafe board n a := by
  cases a with
  | call k => trivial
  | run o =>
    intro f rest hstack
    refine ⟨?_, notAdmitted_exec, ?_⟩
    · rintro ⟨g, hg, howns⟩ hf
      have hl := locked_of_owns hI hg howns
      have hrun : (spiProgram board).step n (.run o)
          = some (.after rest (n.shared.exec board o f)) := by
        rw [Program.step, hstack]
        rfl
      obtain ⟨hview, hemit⟩ := (spiDiscipline board).view_eq hI hl hstack hf hrun
      rw [Program.events_run hstack] at hemit
      exact ⟨(congrArg Shared.spi (Lock.after_shared _)).symm.trans hview, hemit⟩
    · intro hf
      obtain ⟨w, hin⟩ := inside_of_owns hI hstack hf
      exact owns_exec hin

theorem inside_begun {f : Frame} {spi : Spi} (hf : Inside spi w f) :
    ∃ t header body rest, rest ≠ [] ∧ w ++ rest = csWindow t header body := by
  cases f with
  | openspi pc config | setSpiSpeed pc i | closespi pc | setCs pc on => cases hf
  | transfer pc t returned =>
    cases pc with
    | enableIrq | csOn =>
      obtain rfl : w = [.acquired t] := hf
      exact ⟨t, false, false, _, List.cons_ne_nil _ _, rfl⟩
    | header =>
      obtain ⟨rfl, -⟩ := hf
      exact ⟨t, false, false, _, List.cons_ne_nil _ _, rfl⟩
    | body =>
      obtain ⟨rfl, -⟩ := hf
      exact ⟨t, true, false, _, List.cons_ne_nil _ _, rfl⟩
    | csOff | clearBusy =>
      obtain ⟨⟨header, body, he⟩, -⟩ := hf
      exact ⟨t, header, body, _, List.cons_ne_nil _ _, he⟩
    | _ => cases hf

theorem oneWindow_of_inv {n : Nested Shared Frame} (hI : spiLock.Inv h n) :
    OneWindow n.shared.spi.spiBusy h := by
  cases hI with
  | free locked whole =>
    have hfree : n.shared.spi.spiBusy = false := locked
    refine ⟨h, [], by simp, whole, fun _ => rfl, ?_⟩
    rw [hfree]
    exact fun hc => by cases hc
  | held above owner below done w locked _ _ _ _ history whole inside =>
    have hbusy : n.shared.spi.spiBusy = true := locked
    refine ⟨done, w, history, whole, ?_, fun _ => inside_begun inside⟩
    rw [hbusy]
    exact fun hc => by cases hc

theorem owners_le_one {n : Nested Shared Frame} (hI : spiLock.Inv h n) :
    n.stack.countP Frame.owns ≤ 1 := by
  have hzero : ∀ l : List Frame, (∀ f ∈ l, f.owns = false) → l.countP Frame.owns = 0 := by
    intro l hl
    exact List.countP_eq_zero.mpr fun f hf => by simp [hl f hf]
  cases hI with
  | free _ _ owns =>
    rw [hzero n.stack owns]
    exact Nat.zero_le 1
  | held above owner below _ _ _ stack barred owns waiting =>
    rw [stack, List.countP_append, List.countP_cons, hzero below waiting,
      hzero above fun f hf => not_owns_of_barred (barred f hf)]
    split <;> simp

/-- `k` statements whose calls succeed. -/
def runTimes (k : Nat) : List (NestedAct SpiCall BusOutcome) := List.replicate k (.run ⟨true, []⟩)

/-- `openspi`; then a write, preempted by a read before its header, which fails. -/
def preemptedRun : List (NestedAct SpiCall BusOutcome) :=
  [.call .openspi] ++ runTimes 20 ++ [.call (.writetospi [0x80] [1, 2])] ++ runTimes 6 ++
    [.call (.readfromspi [0] 4)] ++ runTimes 4 ++ [.run ⟨false, []⟩] ++ runTimes 3

/-- `openspi`; then a write, preempted by `activate_cs` between clearing `spi_busy` and
its return. -/
def overtakenExit : List (NestedAct SpiCall BusOutcome) :=
  [.call .openspi] ++ runTimes 20 ++ [.call (.writetospi [0x80] [1, 2])] ++ runTimes 10 ++
    [.call .activateCs] ++ runTimes 3

end RedNodeBus.Ranging
