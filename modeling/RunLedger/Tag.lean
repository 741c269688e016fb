import RunLedger.Text.Blank

/-!
# Tags in text

On the command line a tag is written `KEY=VALUE`. The key ends at the first equals sign and is
trimmed; it must not be blank. The value is what follows, unchanged.

## Main definitions

* `TagText.split?`: key and value of a tag in text.
* `TagText.problem`: what is said about a text that is no tag.
-/

namespace RunLedger.TagText

/-- Key and value of a tag in text. -/
def split? (text : String) : Option (String × String) :=
  let cs := text.toList
  match cs.dropWhile (· != '=') with
  | [] => none
  | _ :: value =>
    match Text.trim (cs.takeWhile (· != '=')) with
    | [] => none
    | key => some (String.ofList key, String.ofList value)

/-- What is said about a text that is no tag. -/
def problem (text : String) : String :=
  "expected KEY=VALUE, got '" ++ text ++ "'"

end RunLedger.TagText
