/-!
The names that directives have. Each stands for one setting, or for one bound of a range.
-/

namespace RenderFarm

/-- What a directive sets. -/
inductive Key where
  | width | height | seed | steps
  | scale | minScale | maxScale
  | strength | minStrength | maxStrength
  | samples | batchSize | clipSkip | negativePrompt
  | sampler | checkpoint | vae | style
  | mode | repeats | nextTemplate | delimiter
  | inputImage | randomInputDir
  | filename | triggerPlacement
  | iptcTitle | iptcDescription | iptcKeywords | iptcCopyright
  | highresFix | highresScaleFactor | highresSteps | highresDenoisingStrength | highresUpscaler
  | highresCheckpoint | highresSampler | highresPrompt | highresNegativePrompt
  | useUpscale | upscaleAmount | upscaleModel | upscaleCodeformer | upscaleGfpgan
  | upscaleFaceEnhance | upscaleKeepSource | upscaleStrength | upscaleCheckpoint
  | upscaleSampler | upscaleSteps | upscalePrompt | upscaleNegativePrompt
  | controlNetInputImage | controlNetModel | controlNetPreprocessor | controlNetWeight
  | controlNetGuidanceStart | controlNetGuidanceEnd | controlNetPixelPerfect | controlNetLowVram
  | controlNetMode
  | detailerModel | detailerPrompt | detailerNegativePrompt | detailerStrength
  | detailerConfidence
deriving DecidableEq, Repr

namespace Key

/-- Every name with what it sets. -/
def names : List (String × Key) :=
  [("WIDTH", width), ("HEIGHT", height), ("SEED", seed), ("STEPS", steps),
    ("SCALE", scale), ("MIN_SCALE", minScale), ("MAX_SCALE", maxScale),
    ("STRENGTH", strength), ("MIN_STRENGTH", minStrength), ("MAX_STRENGTH", maxStrength),
    ("SAMPLES", samples), ("BATCH_SIZE", batchSize), ("CLIP_SKIP", clipSkip),
    ("NEG_PROMPT", negativePrompt),
    ("SAMPLER", sampler), ("CKPT_FILE", checkpoint), ("VAE", vae), ("STYLE", style),
    ("MODE", mode), ("REPEAT", repeats), ("NEXT_PROMPT_FILE", nextTemplate), ("DELIM", delimiter),
    ("INPUT_IMAGE", inputImage), ("RANDOM_INPUT_IMAGE_DIR", randomInputDir),
    ("FILENAME", filename), ("AUTO_INSERT_MODEL_TRIGGER", triggerPlacement),
    ("IPTC_TITLE", iptcTitle), ("IPTC_DESCRIPTION", iptcDescription),
    ("IPTC_KEYWORDS", iptcKeywords), ("IPTC_COPYRIGHT", iptcCopyright),
    ("HIGHRES_FIX", highresFix), ("HIGHRES_SCALE_FACTOR", highresScaleFactor),
    ("HIGHRES_STEPS", highresSteps), ("HIGHRES_DENOISING_STRENGTH", highresDenoisingStrength),
    ("HIGHRES_UPSCALER", highresUpscaler), ("HIGHRES_CKPT_FILE", highresCheckpoint),
    ("HIGHRES_SAMPLER", highresSampler), ("HIGHRES_PROMPT", highresPrompt),
    ("HIGHRES_NEG_PROMPT", highresNegativePrompt),
    ("USE_UPSCALE", useUpscale), ("UPSCALE_AMOUNT", upscaleAmount), ("UPSCALE_MODEL", upscaleModel),
    ("UPSCALE_CODEFORMER_AMOUNT", upscaleCodeformer), ("UPSCALE_GFPGAN_AMOUNT", upscaleGfpgan),
    ("UPSCALE_FACE_ENH", upscaleFaceEnhance), ("UPSCALE_KEEP_ORG", upscaleKeepSource),
    ("UPSCALE_SD_STRENGTH", upscaleStrength), ("UPSCALE_CKPT_FILE", upscaleCheckpoint),
    ("UPSCALE_SAMPLER", upscaleSampler), ("UPSCALE_STEPS", upscaleSteps),
    ("UPSCALE_PROMPT", upscalePrompt), ("UPSCALE_NEG_PROMPT", upscaleNegativePrompt),
    ("CONTROLNET_INPUT_IMAGE", controlNetInputImage), ("CONTROLNET_MODEL", controlNetModel),
    ("CONTROLNET_PRE", controlNetPreprocessor), ("CONTROLNET_WEIGHT", controlNetWeight),
    ("CONTROLNET_GUIDANCE_START", controlNetGuidanceStart),
    ("CONTROLNET_GUIDANCE_END", controlNetGuidanceEnd),
    ("CONTROLNET_PIXELPERFECT", controlNetPixelPerfect), ("CONTROLNET_LOWVRAM", controlNetLowVram),
    ("CONTROLNET_CONTROLMODE", controlNetMode),
    ("ADETAILER_MODEL", detailerModel), ("ADETAILER_PROMPT", detailerPrompt),
    ("ADETAILER_NEG_PROMPT", detailerNegativePrompt), ("ADETAILER_STRENGTH", detailerStrength),
    ("ADETAILER_CONFIDENCE", detailerConfidence)]

/-- What a name in upper case sets. -/
def ofName? (name : String) : Option Key :=
  (names.find? (·.1 == name)).map (·.2)

end Key

end RenderFarm
