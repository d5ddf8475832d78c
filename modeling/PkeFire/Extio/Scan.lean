import PkeFire.Extio.State

/-! The periodic scans of `extio_task`: serial inputs, keys, and supervised lines. -/

namespace PkeFire

/-- The number of a serial line, from its byte and its bit. -/
def lineOf (num : Fin 3) (i : Fin 8) : Fin 24 :=
  ⟨num * 8 + i, by omega⟩

namespace Input

/-- Writing one scan counter. -/
def setTimer (input : Input) (line : Fin 24) (scans : Nat) : Input :=
  { input with timer := store input.timer line scans }

/-- Writing one debounced byte. -/
def setSave (input : Input) (num : Fin 3) (byte : UInt8) : Input :=
  { input with save := store input.save num byte }

end Input

/-- Bit `i` of byte `num`, where `io` holds the remaining differences of that byte. -/
def inputCheckBit (num : Fin 3) (i : Fin 8) : Input × UInt8 → Input × UInt8
  | (input, io) =>
    -- The lowest remaining difference belongs to this bit.
    let checked :=
      if io &&& 0x01 != 0 then
        if load input.timer (lineOf num i) < 30 then
          input.setTimer (lineOf num i) (load input.timer (lineOf num i) + 1)
        -- The difference has lasted long enough, so the raw level is accepted.
        else if (load input.buf num >>> UInt8.ofNat i) &&& 0x01 != 0 then
          (input.setTimer (lineOf num i) 0).setSave num (load input.save num ||| bitMask i)
        else
          (input.setTimer (lineOf num i) 0).setSave num (load input.save num &&& ~~~bitMask i)
      else
        -- A bit that agrees starts over.
        input.setTimer (lineOf num i) 0
    (checked, io >>> 1)

/-- The pass of `extio_input_check` over one byte. -/
def inputCheckByte (num : Fin 3) (input : Input) : Input :=
  -- A byte in full agreement is skipped together with the timers of its bits.
  if load input.buf num != load input.save num then
    (countedLoop 8 (inputCheckBit num) (input, load input.buf num ^^^ load input.save num)).1
  else input

/-- `extio_input_check`: one debouncing scan of all serial lines. -/
def extioInputCheck (input : Input) : Input :=
  countedLoop 3 inputCheckByte input

/-- `extio_key_scan` for one key, whose pin reads low while it is down. -/
def keyScanOne (pins : Vector Bool 2) (i : Fin 2) (key : Key) : Key :=
  if !load pins i then
    -- The hold time saturates, and a long hold is reported again at every scan.
    let time := if load key.time i < 255 then load key.time i + 1 else load key.time i
    { time := store key.time i time
      sta := if time > 20 then store key.sta i .keep else key.sta }
  else
    -- A short press is reported at its release, unless an event is still waiting.
    { time := store key.time i 0
      sta := if load key.sta i = .release ∧ load key.time i > 2 then store key.sta i .press else key.sta }

/-- `extio_key_scan`, given the levels of the set key and the door key. -/
def extioKeyScan (pins : Vector Bool 2) (key : Key) : Key :=
  countedLoop 2 (keyScanOne pins) key

/-- `extio_check` for one supervised line, which is active while its level is low. -/
def checkOne (levels : Vector Bool 2) (i : Fin 2) (check : Check) : Check :=
  if !load levels i then
    -- The line is accepted as active only after it has been so for some scans.
    let time := if load check.time i < 255 then load check.time i + 1 else load check.time i
    { time := store check.time i time
      sta := if time > 10 then store check.sta i true else check.sta }
  else
    -- One inactive scan is enough to give the line up.
    { time := store check.time i 0, sta := store check.sta i false }

/-- `extio_check`, given the level of the power-down line inverted and that of the emergency line. -/
def extioCheck (levels : Vector Bool 2) (check : Check) : Check :=
  countedLoop 2 (checkOne levels) check

/-- The levels that one pass of `extio_task` samples. -/
structure Pins where
  /-- The bytes that `extio_input` shifts in. -/
  sample : Vector UInt8 3
  setKey : Bool
  doorKey : Bool
  powerdown : Bool
  emergency : Bool
  deriving DecidableEq, Repr

/-- One pass of `extio_task`; the serial inputs exist only in the FIRE_MACHINE build. -/
def extioTask (fireMachine : Bool) (pins : Pins) (extio : Extio) : Extio :=
  -- Shifting the output byte to the alarm relays leaves the shared object alone.
  { extio with
    input := if fireMachine then extioInputCheck { extio.input with buf := pins.sample } else extio.input
    key := extioKeyScan #v[pins.setKey, pins.doorKey] extio.key
    check := extioCheck #v[!pins.powerdown, pins.emergency] extio.check }

/-- No scan takes back an event that is waiting at a key. -/
theorem extioTask_keySta {fireMachine : Bool} {pins : Pins} {extio : Extio} {num : Fin 2}
    (waiting : extio.keySta num ≠ .release) : (extioTask fireMachine pins extio).keySta num ≠ .release := by
  -- Each pass over a key writes a press, a hold, or nothing.
  have written : ∀ (key : Key) (i : Fin 2) (event : KeySta) (due : Prop) [Decidable due],
      load key.sta num ≠ .release → event ≠ .release →
      load (if due then store key.sta i event else key.sta) num ≠ .release := by
    intro key i event due _ waiting real
    split
    · rw [load_store]
      split
      · exact real
      · exact waiting
    · exact waiting
  -- So no pass over a key takes the event back, whichever key it is about.
  have passes : ∀ (levels : Vector Bool 2) (i : Fin 2) (key : Key), load key.sta num ≠ .release →
      load (keyScanOne levels i key).sta num ≠ .release := by
    intro levels i key waiting
    rw [keyScanOne]
    split
    · exact written key i .keep _ waiting KeySta.noConfusion
    · exact written key i .press _ waiting KeySta.noConfusion
  have before : load extio.key.sta num ≠ .release := waiting
  exact countedLoop_invariant (fun _ key => load key.sta num ≠ .release) before
    fun i key held => passes _ i key held

end PkeFire
