/-!
# Bytes of a text

A file system and a URI work on bytes. A text stands for its bytes in UTF-8; not all bytes are those
of a text.

## Main definitions

* `Text.bytes`: the bytes of a text.
* `Text.ofBytes?`: the text that has the given bytes.
-/

namespace RunLedger.Text

/-- The bytes of a text. -/
def bytes (s : String) : List UInt8 := s.toUTF8.data.toList

/-- The text that has the given bytes, if there is one. -/
def ofBytes? (bs : List UInt8) : Option String := String.fromUTF8? ⟨bs.toArray⟩

end RunLedger.Text
