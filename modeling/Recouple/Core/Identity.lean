import Recouple.Lib.Text

/-!
# Identifiers: `packages/core-domain/src/identity.ts` (50-70)
-/

namespace Recouple
open Js

/-- `identifierMatchKey`: trim, white space collapsed, lower case; nothing cleverer. -/
def identifierMatchKey (T : CaseTables) (identifier : Text) : Text := T.toLowerCase (collapse (trim identifier))

example : identifierMatchKey asciiCase " Inv  7A " = "inv 7a".toList := by decide

end Recouple
