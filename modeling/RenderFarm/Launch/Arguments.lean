import RenderFarm.Text.Search

/-!
Command-line arguments of a device. Arguments that bind a port or a device, or open a browser, are dropped
with their values; the interface is switched on and the device's own port and number are added at the end.
-/

namespace RenderFarm.Launch

/-- Whether a token starts with two dashes, so that it is an option and not the value of one. -/
def isOption : List Char → Bool
  | '-' :: '-' :: _ => true
  | _ => false

/-- The token that opens a browser. -/
def autolaunch : List Char := "--autolaunch".toList

/-- The token that switches the interface on. -/
def apiFlag : List Char := "--api".toList

/-- Options whose value is the device's own. -/
def boundOptions : List (List Char) := ["--port".toList, "--device-id".toList]

/-- Whether a token binds a value of the device's own with an equals sign. -/
def bindsInline (token : List Char) : Bool :=
  boundOptions.any fun o => (o ++ ['=']).isPrefixOf token

/-- The tokens that stay. After an option that is bound, tokens are passed over up to the next option. -/
def keptTokens : Bool → List (List Char) → List (List Char)
  | _, [] => []
  | skipping, token :: rest =>
    if skipping && !isOption token then keptTokens true rest
    else if token = autolaunch then keptTokens false rest
    else if token ∈ boundOptions then keptTokens true rest
    else if bindsInline token then keptTokens false rest
    else token :: keptTokens false rest

/-- The tokens of a device's arguments. -/
def deviceTokens (tokens : List (List Char)) (port : UInt16) (device : List Char) : List (List Char) :=
  let kept := keptTokens false tokens
  kept ++ (if apiFlag ∈ kept then [] else [apiFlag]) ++
    ["--port".toList, (toString port.toNat).toList, "--device-id".toList, device]

/-- The arguments of a device: tokens with one blank between them. -/
def deviceArgs (args : List Char) (port : UInt16) (device : List Char) : List Char :=
  [' '].intercalate (deviceTokens (Chars.words Chars.isBlank args) port device)

end RenderFarm.Launch
