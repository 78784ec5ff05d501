import Mathlib.Data.List.Induction
import CrossbarBench.Proofs.Crossbar.History

/-! What a port shows of its inputs. Each accessor puts values on signals of its own port, and a
value on its way to a register is cut to the wires of its signal, twice. Nothing else changes the
registers: not the clock, not a reset, not the other ports. So a signal reads as it was last set,
and a port that cannot write never has anything in its write registers. -/

namespace CrossbarBench

namespace Word

theorem level_truncate (w : Word) :
    (if w.truncate 1 != 0 then 1 else 0 : Word) = w.truncate 1 := by
  unfold truncate
  generalize w.setWidth 1 = bit
  revert bit
  decide

theorem enables_truncate (w : Word) :
    ((w.truncate 4 &&& 0xF).setWidth 8).setWidth 32 = w.truncate 4 := by
  unfold truncate
  generalize w.setWidth 4 = lanes
  revert lanes
  decide

theorem truncate_zero (width : Nat) : (0 : Word).truncate width = 0 := by
  simp [truncate]

end Word

/-- What the registers show on a signal. -/
def Inputs.shows (inputs : Inputs) : Signal → Word
  | .request => if inputs.request then 1 else 0
  | .address => inputs.address
  | .writeEnable => if inputs.writeEnable then 1 else 0
  | .byteEnables => inputs.enables.setWidth 32
  | .writeData => inputs.data
  | .ready | .readData => 0

namespace Inputs

/-- A register keeps as much of a value as its signal has wires. -/
theorem shows_latch_self (inputs : Inputs) {signal : Signal} (hin : signal.direction = .input)
    (value : Word) :
    (inputs.latch (value.truncate (signal.width 16)) signal).shows signal =
      value.truncate (signal.width 16) := by
  cases signal with
  | request => exact Word.level_truncate value
  | address => exact Word.truncate_truncate 16 value
  | writeEnable => exact Word.level_truncate value
  | byteEnables => exact Word.enables_truncate value
  | writeData => rfl
  | ready => cases hin
  | readData => cases hin

/-- The other registers are left alone. -/
theorem shows_latch (inputs : Inputs) (value : Word) (signal other : Signal) :
    (inputs.latch value signal).shows other =
      if signal = other then (inputs.latch value signal).shows signal else inputs.shows other := by
  cases signal <;> cases other <;> rfl

end Inputs

namespace Crossbar

/-- An operation on a crossbar whose ports are driven through their accessors only. -/
inductive Operation where
  | setRequest (port : Port) (high : Bool)
  | setAddress (port : Port) (address : Word)
  | setWriteEnable (port : Port) (high : Bool)
  | driveWrite (port : Port) (enables : ByteEnables) (data : Word)
  | call (call : Call) (undriven : call.isDrive = false)

/-- What a write puts on a signal of its port. -/
def written (enables : ByteEnables) (data : Word) : Signal → Option Word
  | .writeEnable => some 1
  | .byteEnables => some (enables.setWidth 32)
  | .writeData => some data
  | .request | .ready | .address | .readData => none

theorem written_eq_none {signal : Signal} (h : signal.writeOnly = false) (enables : ByteEnables)
    (data : Word) : written enables data signal = none := by
  cases signal with
  | request | ready | address | readData => rfl
  | writeEnable | byteEnables | writeData => cases h

namespace Operation

/-- What a port refuses changes nothing. -/
def apply (x : Crossbar) : Operation → Crossbar
  | .setRequest port high => Device.setRequest x port high
  | .setAddress port address => Device.setAddress x port address
  | .setWriteEnable port high => (Device.setWriteEnable? x port high).getD x
  | .driveWrite port enables data => (Device.driveWrite? x port enables data).getD x
  | .call c _ => c.apply x

/-- What the operation sets a signal of a port to. -/
def sets (port : Port) (signal : Signal) : Operation → Option Word
  | .setRequest p high =>
    if p = port ∧ .request = signal then some (if high then 1 else 0) else none
  | .setAddress p address => if p = port ∧ .address = signal then some address else none
  | .setWriteEnable p high =>
    if p = port ∧ .writeEnable = signal then some (if high then 1 else 0) else none
  | .driveWrite p enables data => if p = port then written enables data signal else none
  | .call _ _ => none

end Operation

/-- The crossbar after operations in order. -/
def operated (x : Crossbar) (ops : List Operation) : Crossbar := ops.foldl Operation.apply x

/-- What a signal was last set to, and zero before. -/
def lastSet (ops : List Operation) (port : Port) (signal : Signal) : Word :=
  (ops.reverse.findSome? (Operation.sets port signal)).getD 0

theorem operated_concat (x : Crossbar) (ops : List Operation) (op : Operation) :
    x.operated (ops ++ [op]) = op.apply (x.operated ops) :=
  List.foldl_append

theorem lastSet_concat (ops : List Operation) (op : Operation) (port : Port) (signal : Signal) :
    lastSet (ops ++ [op]) port signal = (op.sets port signal).getD (lastSet ops port signal) := by
  rw [lastSet, List.reverse_concat, List.findSome?_cons]
  cases op.sets port signal <;> rfl

/-! ### One operation -/

variable {port : Port} {signal : Signal}

/-- A port that can write has every signal. -/
theorem carries_of_canWrite (h : canWrite port = true) (signal : Signal) :
    (signal.writeOnly && !canWrite port) = false := by
  rw [h, Bool.not_true, Bool.and_false]

theorem shows_put (x : Crossbar) {p : Port} {s : Signal} (hin : s.direction = .input)
    (hc : (s.writeOnly && !canWrite p) = false) (value : Word) (port : Port) (signal : Signal) :
    ((Device.put x p s value).controllers.get port).shows signal =
      if p = port ∧ s = signal then value.truncate (signal.width 16)
      else (x.controllers.get port).shows signal := by
  rw [put_eq x p s value hc, get_register]
  by_cases hp : p = port
  · rw [if_pos hp, Inputs.shows_latch, Inputs.shows_latch_self _ hin]
    by_cases hs : s = signal
    · rw [if_pos hs, if_pos ⟨hp, hs⟩, hs]
    · rw [if_neg hs, if_neg fun h => hs h.2]
  · rw [if_neg hp, if_neg fun h => hp h.1]

theorem getD_map_ite {c : Prop} [Decidable c] (f : Word → Word) (value old : Word) :
    ((if c then some value else none).map f).getD old = if c then f value else old := by
  split <;> rfl

/-- An operation leaves on a signal what it sets it to, cut to its wires, or what was there. -/
theorem shows_apply (x : Crossbar) (op : Operation)
    (hc : (signal.writeOnly && !canWrite port) = false) :
    ((op.apply x).controllers.get port).shows signal =
      ((op.sets port signal).map (Word.truncate (signal.width 16))).getD
        ((x.controllers.get port).shows signal) := by
  -- a port that refuses an operation does not have the signals that this would have set
  have hrefused : ∀ {p : Port}, canWrite p = false → p = port → signal.writeOnly = false := by
    rintro p hp rfl
    rwa [hp, Bool.not_false, Bool.and_true] at hc
  cases op with
  | setRequest p high =>
    rw [Operation.apply, Device.setRequest, shows_put x rfl rfl, Operation.sets, getD_map_ite]
  | setAddress p address =>
    rw [Operation.apply, Device.setAddress, shows_put x rfl rfl, Operation.sets, getD_map_ite]
  | setWriteEnable p high =>
    rw [Operation.apply, Device.setWriteEnable?, device_canWrite, Operation.sets, getD_map_ite]
    cases hp : canWrite p with
    | true => rw [if_pos rfl, Option.getD_some, shows_put x rfl (carries_of_canWrite hp _)]
    | false =>
      have hnot : ¬ (p = port ∧ .writeEnable = signal) := by
        rintro ⟨h, rfl⟩
        cases hrefused hp h
      rw [if_neg Bool.false_ne_true, Option.getD_none, if_neg hnot]
  | driveWrite p enables data =>
    rw [Operation.apply, Device.driveWrite?, Device.setWriteEnable?, device_canWrite,
      Operation.sets]
    cases hp : canWrite p with
    | true =>
      have hcarries := carries_of_canWrite hp
      rw [if_pos rfl, Option.map_some, Option.getD_some, shows_put _ rfl (hcarries _),
        shows_put _ rfl (hcarries _), shows_put _ rfl (hcarries _)]
      by_cases h : p = port
      · cases signal <;> simp [h, written]
      · simp [h]
    | false =>
      rw [if_neg Bool.false_ne_true, Option.map_none, Option.getD_none]
      by_cases h : p = port
      · rw [if_pos h, written_eq_none (hrefused hp h)]
        rfl
      · rw [if_neg h]
        rfl
  | call c undriven =>
    rw [Operation.apply, controllers_apply x undriven]
    rfl

theorem Reached.operation {x : Crossbar} (h : x.Reached) (op : Operation) :
    (op.apply x).Reached := by
  cases op with
  | setRequest p high => exact (closed_reached.on p).setRequest h high
  | setAddress p address => exact (closed_reached.on p).setAddress h address
  | setWriteEnable p high => exact (closed_reached.on p).setWriteEnable? h high
  | driveWrite p enables data => exact (closed_reached.on p).driveWrite? h enables data
  | call c _ => exact h.call c

/-! ### Any operations -/

theorem reached_operated (ops : List Operation) : (initial.operated ops).Reached := by
  induction ops using List.reverseRecOn with
  | nil => exact ⟨[], rfl⟩
  | append_singleton ops op ih =>
    rw [operated_concat]
    exact ih.operation op

theorem shows_operated (ops : List Operation)
    (hc : (signal.writeOnly && !canWrite port) = false) :
    ((initial.operated ops).controllers.get port).shows signal =
      (lastSet ops port signal).truncate (signal.width 16) := by
  induction ops using List.reverseRecOn with
  | nil =>
    have hnew : initial.controllers.get port = Inputs.idle := Table.get_replicate _ _
    rw [operated, List.foldl_nil, hnew, lastSet, List.reverse_nil, List.findSome?_nil,
      Option.getD_none, Word.truncate_zero]
    cases signal <;> rfl
  | append_singleton ops op ih =>
    rw [operated_concat, shows_apply _ op hc, lastSet_concat, ih]
    cases op.sets port signal <;> rfl

theorem read_eq_shows (x : Crossbar) (hin : signal.direction = .input)
    (hc : (signal.writeOnly && !canWrite port) = false) :
    x.read port signal = (x.controllers.get port).shows signal := by
  unfold read
  dsimp only
  rw [hc, if_neg Bool.false_ne_true]
  cases signal with
  | ready => cases hin
  | readData => cases hin
  | request | address | writeEnable | byteEnables | writeData => rfl

/-- Every input signal that a port has is sensed as it was last set. -/
theorem sense_operated (ops : List Operation) (port : Port) (signal : Signal)
    (hin : signal.direction = .input) (hc : (signal.writeOnly && !canWrite port) = false) :
    Device.sense (initial.operated ops) port signal =
      (lastSet ops port signal).truncate (signal.width 16) := by
  rw [sense_eq, read_eq_shows _ hin hc, shows_operated ops hc, Word.truncate_truncate]

/-- After any operations each getter of a port returns what its signal was last set to, as far as
the signal has wires. A port that cannot write has no write signals, refuses to set them, and
leaves the crossbar and its own write enable as they were. -/
theorem getters_return_last_set (ops : List Operation) :
    let x := initial.operated ops
    (∀ port : Port,
      Device.request x port = ((lastSet ops port .request).truncate 1 != 0) ∧
      Device.address x port = (lastSet ops port .address).truncate 16 ∧
      Device.writeEnable? x port =
        (if port = Port.one then none
          else some ((lastSet ops port .writeEnable).truncate 1 != 0)) ∧
      Device.byteEnables? x port =
        (if port = Port.one then none
          else some (((lastSet ops port .byteEnables).truncate 4).setWidth 8)) ∧
      Device.writeData? x port =
        (if port = Port.one then none else some ((lastSet ops port .writeData).truncate 32))) ∧
    (∀ high, Device.setWriteEnable? x Port.one high = none ∧
      (Operation.setWriteEnable Port.one high).apply x = x) ∧
    (∀ enables data, Device.driveWrite? x Port.one enables data = none ∧
      (Operation.driveWrite Port.one enables data).apply x = x) ∧
    (x.controllers.get Port.one).writeEnable = false := by
  intro x
  refine ⟨fun port => ⟨?_, ?_, ?_⟩, fun _ => ⟨rfl, rfl⟩, fun _ _ => ⟨rfl, rfl⟩, ?_⟩
  · exact congrArg (· != 0) (sense_operated ops port .request rfl rfl)
  · exact sense_operated ops port .address rfl rfl
  · by_cases hport : port = Port.one
    · subst hport
      exact ⟨rfl, rfl, rfl⟩
    · have hcan : canWrite port = true := bne_iff_ne.mpr hport
      have hcarries := carries_of_canWrite hcan
      rw [Device.writeEnable?, Device.byteEnables?, Device.writeData?, device_canWrite, hcan,
        sense_operated ops port .writeEnable rfl (hcarries _),
        sense_operated ops port .byteEnables rfl (hcarries _),
        sense_operated ops port .writeData rfl (hcarries _), if_neg hport, if_neg hport,
        if_neg hport]
      exact ⟨rfl, rfl, rfl⟩
  · exact ((reached_operated ops).fits Port.one).readOnly rfl |>.1

end Crossbar

end CrossbarBench
