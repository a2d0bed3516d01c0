import TreeCheck.Text

/-!
Colours on a terminal: control sequences around a text, or nothing where colours are off.
-/

namespace TreeCheck

inductive Style where
  | red | green | yellow | blue | cyan | bold | plainBlue

namespace Style

def start : Style → String
  | red => "31;1"
  | green => "32;1"
  | yellow => "33;1"
  | blue => "34;1"
  | cyan => "36;1"
  | bold => "1"
  | plainBlue => "34"

def stop : Style → String
  | bold => "22"
  | plainBlue => "0"
  | _ => "0;22"

def control (codes : String) : Text :=
  0x1B :: text "[" ++ text codes ++ text "m"

def paint (colors : Bool) (style : Style) (t : Text) : Text :=
  if colors then control style.start ++ t ++ control style.stop else t

end Style

end TreeCheck
