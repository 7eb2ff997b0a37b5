import Mathlib.Data.List.Basic

namespace PmTiny
set_option autoImplicit true

def protocolV3MaxPayload : Nat := 4 * 1024 * 1024

def protocolV3Version : UInt8 := 3

def protocolFlagResponse : UInt8 := 0x01

def protocolFlagError : UInt8 := 0x02

def protocolFlagStream : UInt8 := 0x04

def protocolFlagMore : UInt8 := 0x08

structure ProtocolMessage where
  type : UInt16 := 0
  flags : UInt8 := 0
  requestId : UInt32 := 0
  payload : List UInt8 := []
  deriving DecidableEq, Repr

inductive ProtocolError where
  | magic | version | flags | payloadSize | noMessage
  deriving DecidableEq, Repr

def ProtocolError.what : ProtocolError → String
  | magic => "invalid protocol magic"
  | version => "unsupported protocol version"
  | flags => "invalid protocol flags"
  | payloadSize => "protocol payload exceeds maximum size"
  | noMessage => "no decoded protocol message"

namespace ProtocolV3

def headerSize : Nat := 16

/-- The characters `PMT3`. -/
def magic : List UInt8 := [0x50, 0x4d, 0x54, 0x33]

def put16 (v : UInt16) : List UInt8 := [(v >>> 8).toUInt8, v.toUInt8]

def put32 (v : UInt32) : List UInt8 :=
  [(v >>> 24).toUInt8, (v >>> 16).toUInt8, (v >>> 8).toUInt8, v.toUInt8]

def get16 (p : List UInt8) : UInt16 := (p.getD 0 0).toUInt16 <<< 8 ||| (p.getD 1 0).toUInt16

def get32 (p : List UInt8) : UInt32 :=
  (p.getD 0 0).toUInt32 <<< 24 ||| (p.getD 1 0).toUInt32 <<< 16 |||
    (p.getD 2 0).toUInt32 <<< 8 ||| (p.getD 3 0).toUInt32

def allowedFlags : UInt8 :=
  protocolFlagResponse ||| protocolFlagError ||| protocolFlagStream ||| protocolFlagMore

/-- The flags that `validate_flags` lets through. -/
def validFlags (flags : UInt8) : Bool :=
  !(flags &&& ~~~allowedFlags != 0 ||
    (flags &&& protocolFlagError != 0 && !(flags &&& protocolFlagResponse != 0)) ||
    (flags &&& protocolFlagMore != 0 && !(flags &&& protocolFlagStream != 0)))

end ProtocolV3

open ProtocolV3

def protocolEncode (message : ProtocolMessage) : Except ProtocolError (List UInt8) :=
  if message.payload.length > protocolV3MaxPayload then .error .payloadSize
  else if !validFlags message.flags then .error .flags
  else .ok (magic ++ [protocolV3Version, message.flags] ++ put16 message.type ++
    put32 message.requestId ++ put32 (UInt32.ofNat message.payload.length) ++ message.payload)

structure ProtocolDecoder where
  buffer : List UInt8 := []
  messages : List ProtocolMessage := []
  deriving DecidableEq, Repr

namespace ProtocolDecoder

/-- The loop of `feed`; it ends with the decoder as it stands when the function returns or
throws. -/
def decode : Nat → ProtocolDecoder → ProtocolDecoder × Option ProtocolError
  | 0, d => (d, none)
  | fuel + 1, d =>
    if d.buffer.length < headerSize then (d, none)
    else if d.buffer.take 4 ≠ magic then (d, some .magic)
    else if d.buffer.getD 4 0 ≠ protocolV3Version then (d, some .version)
    else if !validFlags (d.buffer.getD 5 0) then (d, some .flags)
    else
      let payloadSize := get32 (d.buffer.drop 12)
      if payloadSize.toNat > protocolV3MaxPayload then (d, some .payloadSize)
      else
        let total := headerSize + payloadSize.toNat
        if d.buffer.length < total then (d, none)
        else
          let message : ProtocolMessage :=
            { flags := d.buffer.getD 5 0
              type := get16 (d.buffer.drop 6)
              requestId := get32 (d.buffer.drop 8)
              payload := (d.buffer.take total).drop headerSize }
          decode fuel { buffer := d.buffer.drop total, messages := d.messages ++ [message] }

/-- Every round of the loop takes a whole header off the buffer, so its length bounds the rounds. -/
def feed (d : ProtocolDecoder) (data : List UInt8) : ProtocolDecoder × Option ProtocolError :=
  if data.length = 0 then (d, none)
  else decode (d.buffer.length + data.length + 1) { d with buffer := d.buffer ++ data }

def empty (d : ProtocolDecoder) : Bool := d.messages.isEmpty

def pop (d : ProtocolDecoder) : Except ProtocolError (ProtocolMessage × ProtocolDecoder) :=
  match d.messages with
  | [] => .error .noMessage
  | message :: messages => .ok (message, { d with messages := messages })

end ProtocolDecoder

end PmTiny
