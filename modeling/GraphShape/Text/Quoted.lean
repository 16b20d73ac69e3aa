import GraphShape.Text.Invisible

/-!
# Quoted text

Text between double quotes in which every character shows: quotes, backslashes, controls and
characters that do not show by themselves are written as escapes.
-/

namespace GraphShape.Text

def showChar (ch : Char) : List Char :=
  if ch = '"' then ['\\', '"']
  else if ch = '\\' then ['\\', '\\']
  else if ch = '\n' then ['\\', 'n']
  else if ch = '\r' then ['\\', 'r']
  else if ch = '\t' then ['\\', 't']
  else if ch.toNat = 0 then ['\\', '0']
  else if ch.toNat < 32 || ch.toNat = 127 || (127 < ch.toNat && isInvisible ch) then
    '\\' :: 'u' :: '\x7b' :: (Nat.toDigits 16 ch.toNat ++ ['\x7d'])
  else [ch]

def quoted (s : String) : String :=
  String.ofList ('"' :: (s.toList.flatMap showChar ++ ['"']))

end GraphShape.Text
