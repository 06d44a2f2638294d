import MailSubmission.Fault
import MailSubmission.Reply.Decoder

set_option autoImplicit false

/-!
# Reply: the first reply in some octets

Octets that are all there hold at most one reply that counts, the first one.  Its lines
come either as they are, or as one reply, or as one reply each.
-/

namespace MailSubmission

/-- The lines of the first reply in `octets`, if it is complete and keeps within the
tolerance. -/
def ReplyLine.decode (tolerance : Nat) (octets : List UInt8) : Except Fault (List ReplyLine) :=
  match (Decoder.ofTolerance tolerance).scan [] octets with
  | .complete lines _ _ => .ok lines
  | .more _ _ => .error .connectionClosed
  | .thrashing seen _ _ => .error (.replyThrashing seen)

namespace Reply

/-- The first reply in `octets`. -/
def decode (octets : List UInt8) : Except Fault Reply :=
  (ReplyLine.decode Decoder.defaultTolerance octets).map ReplyLine.collapse

/-- The lines of the first reply in `octets`, each as a reply of its own. -/
def decodeEach (octets : List UInt8) : Except Fault (List Reply) :=
  (ReplyLine.decode Decoder.defaultTolerance octets).map ReplyLine.expand

end Reply

end MailSubmission
