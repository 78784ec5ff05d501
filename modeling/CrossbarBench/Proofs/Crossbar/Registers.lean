import CrossbarBench.Check.Run
import CrossbarBench.Crossbar.Basic

/-! The input registers of a crossbar as a bench drives and senses them. Driving a signal
changes one register of one port, putting a request onto a port loads all that the port
has, and what is sensed is what the registers hold. -/

namespace CrossbarBench

/-- Masking keeps as many bits as the signal has wires. -/
theorem Signal.and_mask (value : Word) (addressWidth : Nat) (signal : Signal) :
    value &&& signal.mask addressWidth = value.truncate (signal.width addressWidth) := by
  ext j hj
  have h : j < min (signal.width addressWidth) 32 ↔ j < signal.width addressWidth := by omega
  simp [Signal.mask, Word.truncate, BitVec.getLsbD_eq_getElem hj, h, Bool.and_comm]

theorem Word.truncate_word (w : Word) : w.truncate 32 = w := by
  simp [truncate]

theorem Word.truncate_level (high : Bool) :
    ((if high then 1 else 0 : Word).truncate 1 != 0) = high := by
  cases high <;> rfl

theorem ByteEnables.sense_eq (enables : ByteEnables) :
    (Word.truncate 4 (enables.setWidth 32)).setWidth 8 = enables &&& 0xF := by
  revert enables; decide

/-- The upper half of the byte enables is lost on the way to the registers. -/
theorem ByteEnables.latch_eq (enables : ByteEnables) :
    (Word.truncate 4 (enables.setWidth 32) &&& 0xF).setWidth 8 = enables &&& 0xF := by
  revert enables; decide

namespace Inputs

/-- The registers of a port after a request is put onto it. -/
def load (port : Port) (q : Request) (inputs : Inputs) : Inputs where
  request := true
  address := AddressMap.standard.mask q.address
  writeEnable := if Crossbar.canWrite port then q.isWrite else inputs.writeEnable
  enables := if Crossbar.canWrite port && q.isWrite then q.enables &&& 0xF else inputs.enables
  data := if Crossbar.canWrite port && q.isWrite then q.data else inputs.data

/-- What the registers of a port can hold: as many bits as the signals have wires, and on a
port that cannot write nothing in the write registers. -/
structure Fits (port : Port) (inputs : Inputs) : Prop where
  address : AddressMap.standard.mask inputs.address = inputs.address
  enables : inputs.enables &&& 0xF = inputs.enables
  readOnly : Crossbar.canWrite port = false →
    inputs.writeEnable = false ∧ inputs.enables = 0 ∧ inputs.data = 0

end Inputs

namespace Crossbar

/-- A change of the registers of one port. -/
def register (x : Crossbar) (port : Port) (f : Inputs → Inputs) : Crossbar :=
  { x with controllers := x.controllers.modify port f }

theorem get_register (x : Crossbar) (port c : Port) (f : Inputs → Inputs) :
    (x.register port f).controllers.get c =
      if port = c then f (x.controllers.get c) else x.controllers.get c :=
  Table.get_modify x.controllers port c f

theorem register_register (x : Crossbar) (port : Port) (f g : Inputs → Inputs) :
    (x.register port f).register port g = x.register port (g ∘ f) := by
  have h : (x.controllers.modify port f).modify port g = x.controllers.modify port (g ∘ f) :=
    Table.ext_get fun c => by
      simp only [Table.get_modify]
      split <;> rfl
  rw [register, register, register, h]

/-! ### Driving -/

theorem put_eq (x : Crossbar) (port : Port) (signal : Signal) (value : Word)
    (h : (signal.writeOnly && !canWrite port) = false) :
    Device.put x port signal value =
      x.register port (·.latch (value.truncate (signal.width 16)) signal) := by
  rw [Device.put, device_addressWidth, Signal.and_mask, device_drive, drive, h]
  rfl

theorem setRequest_eq (x : Crossbar) (port : Port) (high : Bool) :
    Device.setRequest x port high = x.register port ({ · with request := high }) := by
  rw [Device.setRequest, put_eq _ _ _ _ rfl]
  simp only [Inputs.latch, Signal.width, Word.truncate_level]

theorem setAddress_eq (x : Crossbar) (port : Port) (address : Word) :
    Device.setAddress x port address =
      x.register port ({ · with address := AddressMap.standard.mask address }) := by
  rw [Device.setAddress, put_eq _ _ _ _ rfl]
  exact congrArg (x.register port) (funext fun inputs =>
    congrArg (fun a => { inputs with address := a }) (Word.truncate_truncate 16 address))

theorem setWriteEnable?_eq (x : Crossbar) (port : Port) (high : Bool) :
    Device.setWriteEnable? x port high =
      if canWrite port then some (x.register port ({ · with writeEnable := high })) else none := by
  rw [Device.setWriteEnable?, device_canWrite]
  by_cases h : canWrite port = true
  · rw [if_pos h, if_pos h, put_eq _ _ _ _ (by simp [h])]
    simp only [Inputs.latch, Signal.width, Word.truncate_level]
  · rw [if_neg h, if_neg h]

theorem driveWrite?_eq (x : Crossbar) (port : Port) (enables : ByteEnables) (data : Word) :
    Device.driveWrite? x port enables data =
      if canWrite port then
        some (x.register port ({ · with
          writeEnable := true, enables := enables &&& 0xF, data := data }))
      else none := by
  rw [Device.driveWrite?, setWriteEnable?_eq]
  by_cases h : canWrite port = true
  · rw [if_pos h, if_pos h, Option.map_some, put_eq _ _ _ _ (by simp [h]),
      put_eq _ _ _ _ (by simp [h])]
    simp only [register_register, Inputs.latch, Signal.width, Word.truncate_word,
      ByteEnables.latch_eq, Function.comp_def]
  · rw [if_neg h, if_neg h, Option.map_none]

theorem issue_eq (x : Crossbar) (port : Port) (q : Request) :
    Device.issue x port q = x.register port (Inputs.load port q) := by
  simp only [Device.issue, setRequest_eq, setAddress_eq, register_register, driveWrite?_eq,
    setWriteEnable?_eq]
  by_cases hc : canWrite port = true <;> cases hq : q.isWrite <;>
    simp only [hc, Bool.false_eq_true, ↓reduceIte, Option.getD_some, Option.getD_none] <;>
    exact congrArg (x.register port) (funext fun inputs => by simp [Inputs.load, hc, hq])

/-! ### Sensing -/

theorem sense_eq (x : Crossbar) (port : Port) (signal : Signal) :
    Device.sense x port signal = (x.read port signal).truncate (signal.width 16) :=
  Signal.and_mask (x.read port signal) 16 signal

theorem request_eq (x : Crossbar) (port : Port) :
    Device.request x port = (x.controllers.get port).request := by
  rw [Device.request, sense_eq]
  exact Word.truncate_level _

theorem ready_eq (x : Crossbar) (port : Port) : Device.ready x port = x.ready.get port := by
  rw [Device.ready, sense_eq]
  exact Word.truncate_level _

theorem address_eq (x : Crossbar) (port : Port) :
    Device.address x port = AddressMap.standard.mask (x.controllers.get port).address := by
  rw [Device.address, sense_eq]
  rfl

theorem readData_eq (x : Crossbar) (port : Port) :
    Device.readData x port = x.readData.get port := by
  rw [Device.readData, sense_eq]
  exact Word.truncate_word _

theorem writeEnable?_eq (x : Crossbar) (port : Port) :
    Device.writeEnable? x port =
      if canWrite port then some (x.controllers.get port).writeEnable else none := by
  rw [Device.writeEnable?, sense_eq, device_canWrite]
  by_cases h : canWrite port = true
  · rw [if_pos h, if_pos h, read]
    simp only [h, Bool.not_true, Bool.and_false, Bool.false_eq_true, ↓reduceIte]
    exact congrArg some (Word.truncate_level _)
  · rw [if_neg h, if_neg h]

theorem byteEnables?_eq (x : Crossbar) (port : Port) :
    Device.byteEnables? x port =
      if canWrite port then some ((x.controllers.get port).enables &&& 0xF) else none := by
  rw [Device.byteEnables?, sense_eq, device_canWrite]
  by_cases h : canWrite port = true
  · rw [if_pos h, if_pos h, read]
    simp only [h, Bool.not_true, Bool.and_false, Bool.false_eq_true, ↓reduceIte]
    exact congrArg some (ByteEnables.sense_eq _)
  · rw [if_neg h, if_neg h]

theorem writeData?_eq (x : Crossbar) (port : Port) :
    Device.writeData? x port =
      if canWrite port then some (x.controllers.get port).data else none := by
  rw [Device.writeData?, sense_eq, device_canWrite]
  by_cases h : canWrite port = true
  · rw [if_pos h, if_pos h, read]
    simp only [h, Bool.not_true, Bool.and_false, Bool.false_eq_true, ↓reduceIte]
    exact congrArg some (Word.truncate_word _)
  · rw [if_neg h, if_neg h]

end Crossbar

end CrossbarBench
