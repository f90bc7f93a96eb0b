import WhisperChat.Anchor
import WhisperChat.Json.Written
import WhisperChat.Wire.Field

/-!
# Anchors on the wire

An anchor is a string whose text names it.
-/

namespace WhisperChat.Anchor

def toJson (a : Anchor) : Json := .str a.text

def ofJson? (value : Json) : Option Anchor := (Wire.string? value).bind parse?

def parseJson? (s : String) : Option Anchor := (Json.parse? s).bind ofJson?

end WhisperChat.Anchor
