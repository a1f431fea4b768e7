import SlickSim.Lib.JsonText

/-!
# One payload for many subscribers

`SequencedMessage` of `market_data_publisher/sequenced_message.hpp`: a message is
serialised once, and each subscriber's number is spliced into the text.
-/

set_option autoImplicit false

namespace SlickSim

open JsonText

def sequenceNum : List Char := "sequence_num".toList

/-- `SequencedMessage`. Without a field to stamp, `textPrefix` is the whole document. -/
structure SequencedMessage where
  textPrefix : List Char
  textSuffix : List Char
  buffer : List Char
  sequenced : Bool

/-- The message with its number set, as `dump` serialises it. -/
def dumpSequenced (message : Members) (number : UInt64) : List Char :=
  (Value.object (message.set sequenceNum (.number (.ofNat number.toNat)))).dump

namespace SequencedMessage

def wrap (message : Members) : SequencedMessage :=
  let text := dumpSequenced message 0
  let key := keyText sequenceNum
  match find key text with
  | none => { textPrefix := text, textSuffix := [], buffer := [], sequenced := false }
  | some found =>
      let valueAt := found + key.length
      let stop := valueAt + ((text.drop valueAt).takeWhile Char.isDigit).length
      { textPrefix := text.take valueAt, textSuffix := text.drop stop, buffer := [], sequenced := true }

def render (message : SequencedMessage) (sequenceNumber : UInt64) : List Char × SequencedMessage :=
  if message.sequenced = false then (message.textPrefix, message)
  else
    let buffer := message.textPrefix ++ Nat.toDigits 10 sequenceNumber.toNat ++ message.textSuffix
    (buffer, { message with buffer })

/-- One object rendered for one subscriber after the other. -/
def renders (message : SequencedMessage) : List UInt64 → List (List Char)
  | [] => []
  | number :: numbers => (message.render number).1 :: (message.render number).2.renders numbers

end SequencedMessage

end SlickSim
