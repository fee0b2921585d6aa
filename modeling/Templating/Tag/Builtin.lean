import Templating.Tag.Basic

/-!
# Tags that every renderer starts with
-/

namespace Templating.Tags

def onText (change : String → String) : Tag := fun call => do
  let s ← call.text
  return .text (change s)

def count : Tag := fun call =>
  match call.parameters.head? with
  | some (.list items) => .ok (.int items.length)
  | some (.dict entries) => .ok (.int entries.length)
  | some (.text s) => .ok (.int s.length)
  | _ => .error (call.error "expected an array, dictionary or string")

def occursIn (part : List Char) : List Char → Bool
  | [] => part.isEmpty
  | c :: cs => part.isPrefixOf (c :: cs) || occursIn part cs

/-- Whether a list has an item, a dictionary a key, or a text another within. -/
def contains : Tag := fun call =>
  match call.parameters with
  | .list items :: needle :: _ => .ok (.bool (items.any (Value.same needle)))
  | .text haystack :: .text needle :: _ => .ok (.bool (occursIn needle.toList haystack.toList))
  | .dict entries :: .text key :: _ => .ok (.bool (Table.has entries key))
  | _ => .error (call.error "expected a collection and an item")

def builtin : Tags := .ofEntries
  [("lowercased", onText Text.lowercase),
   ("uppercased", onText Text.uppercase),
   ("capitalized", onText Text.capitalize),
   ("count", count),
   ("contains", contains)]

end Templating.Tags
