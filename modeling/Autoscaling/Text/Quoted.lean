import Autoscaling.Text.Digits
import Autoscaling.Text.Invisible

/-!
# Quoted text

Text from outside is put into messages between double quotes.  Inside, a quote, a backslash and
whatever cannot be seen are written as escapes, so the message shows exactly which characters the
text has.
-/

namespace Autoscaling

namespace Quoted

/-- How a character stands between the quotes. -/
def escape (c : Char) : List Char :=
  if c = '"' then ['\\', '"']
  else if c = '\\' then ['\\', '\\']
  else if c = '\n' then ['\\', 'n']
  else if c = '\r' then ['\\', 'r']
  else if c = '\t' then ['\\', 't']
  else if c = '\x00' then ['\\', '0']
  else if isInvisible c then ['\\', 'u', '\x7b'] ++ Digits.write 16 c.toNat ++ ['\x7d']
  else [c]

end Quoted

/-- The text between quotes. -/
def quoted (s : String) : String :=
  String.ofList ('"' :: s.toList.flatMap Quoted.escape ++ ['"'])

end Autoscaling
