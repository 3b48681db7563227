import Caption.Settings.Setting
import Caption.Settings.Toml.Moment

/-!
TOML values as they stand in a document, and the settings that they stand for.
-/
namespace Caption

namespace Toml

/-- A value of a document. The entries of a table stand in the order in which they were made. -/
inductive Value where
  /-- A string, number or boolean, by its text. -/
  | text (text : String)
  /-- A date, a time, or both, by their text. -/
  | moment (text : String)
  | list (items : List Value)
  | table (entries : List (String × Value))
deriving Inhabited

namespace Value

/-- A table that begins with this key stands for the date or time that the string under it names. -/
def momentKey : String := "$__toml_private_datetime"

/-- The date or time that a string names. The text of a number or boolean never names one. -/
def named? : Value → Option Setting
  | .text name => (momentNamed? name).map .text
  | _ => none

mutual

/-- The setting that a value stands for. Once a table is known to stand for a date or time, its
other entries are not looked at. -/
def setting? : Value → Option Setting
  | .text written => some (.text written)
  | .moment written => some (.text written)
  | .list items => (settings? items).map .list
  | .table [] => some (.table [])
  | .table ((key, value) :: rest) =>
    if key = momentKey then value.named?
    else do
      let first ← value.setting?
      let others ← entrySettings? rest
      pure (.table ((key, first) :: others))

def settings? : List Value → Option (List Setting)
  | [] => some []
  | item :: rest => do
    let first ← item.setting?
    let others ← settings? rest
    pure (first :: others)

def entrySettings? : List (String × Value) → Option (List (String × Setting))
  | [] => some []
  | (key, value) :: rest => do
    let first ← value.setting?
    let others ← entrySettings? rest
    pure ((key, first) :: others)

end

end Value

end Toml

end Caption
