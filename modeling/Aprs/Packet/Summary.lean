import Aprs.Packet

/-!
# Summaries

A packet in one line: who sends to whom, what the packet is about, and what of its information there
is to say.

Specification: 13 (Tools).
-/

namespace Aprs.Packet

variable {α : Type} [Scalar α]

/-- A part of the summary with a space before it, if there is one. -/
def part {β : Type} (f : β → Text) : Option β → Text
  | none => []
  | some x => ' ' :: f x

/-- The packet in one line. -/
def summary (p : Packet α) : Text :=
  let payload := p.payload
  p.header.source.text ++ '>' :: p.header.destination.text ++ ' ' :: payload.kind.name
    ++ part (fun r => r.position.text) payload.position?
    ++ part (fun e => '[' :: e.text ++ [']']) payload.extension?
    ++ part Message.text payload.message?
    ++ (if payload.comment.isEmpty then [] else ' ' :: Text.quote payload.comment)
    ++ if payload.hasFault then " FAULT: ".toList ++ payload.faultReason else []

end Aprs.Packet
