import RemoteSlots.Slot.Basic

/-!
This module contains the text of a slot, field by field, for inspection.
-/

namespace RemoteSlots

namespace Slot

def recordText (name : String) (fields : List (String × String)) : String :=
  name ++ " \x7b " ++ ", ".intercalate (fields.map fun (field, text) => field ++ ": " ++ text) ++ " \x7d"

def wordsText (words : List UInt32) : String :=
  "[" ++ ", ".intercalate (words.map toString) ++ "]"

def text : {layout : Layout} → Slot layout → String
  | .keyValue, slot =>
    recordText "KeyValueSlot"
      [("checksum", toString slot.checksum), ("value", toString slot.value)]
  | .postcard, slot =>
    recordText "PostcardSlot"
      [("hops", wordsText slot.hops), ("padding", wordsText slot.padding)]
  | .append, slot => recordText "AppendSlot" [("value", toString slot.loggedValue)]

example : (entry 1 2).text = "KeyValueSlot \x7b checksum: 1, value: 2 \x7d" := by decide +kernel

end Slot

end RemoteSlots
