import Coordinator.Kit.Text

/-! Compact serialization with the keys of every object in order that keeps characters past ASCII
as they are. -/

namespace Coordinator.Kit.Json

def rawEscape (c : Char) : List Char := if 126 < c.toNat then [c] else escape c

def rawQuoted (s : String) : List Char := '"' :: (Text.characters s).flatMap rawEscape ++ ['"']

mutual

def rawBytes : Json → List Char
  | .str value => rawQuoted value
  | .arr items => '[' :: [','].intercalate (rawItems items) ++ [']']
  | .obj entries =>
      let ordered := (rawEntries entries).insertionSort (fun a b => a.1 ≤ b.1)
      '\x7b' :: [','].intercalate (ordered.map (fun entry => rawQuoted entry.1 ++ ':' :: entry.2)) ++ ['\x7d']
  | plain => plain.canonical

def rawItems : List Json → List (List Char)
  | [] => []
  | value :: rest => rawBytes value :: rawItems rest

def rawEntries : List (String × Json) → List (String × List Char)
  | [] => []
  | (key, value) :: rest => (key, rawBytes value) :: rawEntries rest

end

end Coordinator.Kit.Json
