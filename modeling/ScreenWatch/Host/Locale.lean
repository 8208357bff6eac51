import ScreenWatch.Host.Delivery

/-!
# The locale

The character set of the user's locale, and what is said when the locale cannot be had.
-/

namespace ScreenWatch.Host

/-- The variables of the environment and their values. -/
abbrev Environment := List (Bytes × Bytes)

namespace Environment

def get? (env : Environment) (name : String) : Option Bytes := List.lookup (ascii name) env

/-- The value of a variable that is set and not empty. -/
def nonempty? (env : Environment) (name : String) : Option Bytes :=
  (env.get? name).filter fun value => !value.isEmpty

end Environment

namespace Locale

/-- The name of the character set; the long name of ASCII, and no name at all, become the short one. -/
def charset (codeset : Option Bytes) : Bytes :=
  match codeset with
  | none => ascii "US-ASCII"
  | some name => if name = ascii "ANSI_X3.4-1968" then ascii "US-ASCII" else name

/-- The byte with an upper-case ASCII letter made lower-case. -/
def lower (b : UInt8) : UInt8 := if 0x41 ≤ b ∧ b ≤ 0x5A then b + 0x20 else b

def isUtf8 (codeset : Option Bytes) : Bool :=
  let name := (charset codeset).map lower
  name == ascii "utf-8" || name == ascii "utf8"

/-- The variable that names the locale, and the name. -/
def source? (env : Environment) : Option (String × Bytes) :=
  ["LC_ALL", "LC_CTYPE", "LANG"].findSome? fun name => (env.nonempty? name).map fun value => (name, value)

/-- What is said when the locale cannot be set: a locale that was asked for by name may be missing. -/
def complaint (env : Environment) (e : Errno) : Bytes :=
  match source? env with
  | some (name, value) =>
    if e = Errno.noEntry then
      ascii "The locale requested by " ++ ascii name ++ ascii "=" ++ value ++ ascii " isn't available here.\n"
        ++ ascii "Running `locale-gen " ++ value ++ ascii "' may be necessary.\n\n"
    else e.report (ascii "setlocale")
  | none => e.report (ascii "setlocale")

/-- What setting the locale leaves to say. -/
def setNative (env : Environment) (failure : Option Errno) : Bytes :=
  match failure with
  | some e => complaint env e
  | none => []

end Locale

end ScreenWatch.Host
