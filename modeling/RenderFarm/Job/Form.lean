import RenderFarm.Job.Basic

/-!
The JSON form of jobs and of their parts.
-/

namespace RenderFarm

instance : JsonForm Highres where
  toJson h := .object
    [("enabled", toJson h.enabled), ("scale_factor", toJson h.scaleFactor), ("steps", toJson h.steps),
      ("denoising_strength", toJson h.denoisingStrength), ("upscaler", toJson h.upscaler),
      ("ckpt_file", toJson h.checkpoint), ("sampler", toJson h.sampler), ("prompt", toJson h.prompt),
      ("negative_prompt", toJson h.negativePrompt)]
  ofJson? v := do
    pure
      { enabled := ← v.field? "enabled", scaleFactor := ← v.field? "scale_factor"
        steps := ← v.field? "steps", denoisingStrength := ← v.field? "denoising_strength"
        upscaler := ← v.field? "upscaler", checkpoint := ← v.field? "ckpt_file"
        sampler := ← v.field? "sampler", prompt := ← v.field? "prompt"
        negativePrompt := ← v.field? "negative_prompt" }

instance : JsonForm ControlNet where
  toJson c := .object
    [("input_image", toJson c.inputImage), ("model", toJson c.model),
      ("preprocessor", toJson c.preprocessor), ("weight", toJson c.weight),
      ("guidance_start", toJson c.guidanceStart), ("guidance_end", toJson c.guidanceEnd),
      ("pixel_perfect", toJson c.pixelPerfect), ("low_vram", toJson c.lowVram),
      ("control_mode", toJson c.controlMode)]
  ofJson? v := do
    pure
      { inputImage := ← v.field? "input_image", model := ← v.field? "model"
        preprocessor := ← v.field? "preprocessor", weight := ← v.field? "weight"
        guidanceStart := ← v.field? "guidance_start", guidanceEnd := ← v.field? "guidance_end"
        pixelPerfect := ← v.field? "pixel_perfect", lowVram := ← v.field? "low_vram"
        controlMode := ← v.field? "control_mode" }

instance : JsonForm Detailer where
  toJson d := .object
    [("model", toJson d.model), ("prompt", toJson d.prompt),
      ("negative_prompt", toJson d.negativePrompt), ("confidence", toJson d.confidence),
      ("denoising_strength", toJson d.denoisingStrength)]
  ofJson? v := do
    pure
      { model := ← v.field? "model", prompt := ← v.field? "prompt"
        negativePrompt := ← v.field? "negative_prompt", confidence := ← v.field? "confidence"
        denoisingStrength := ← v.field? "denoising_strength" }

instance : JsonForm Upscale where
  toJson u := .object
    [("enabled", toJson u.enabled), ("method", toJson u.method), ("amount", toJson u.amount),
      ("codeformer_visibility", toJson u.codeformerVisibility),
      ("gfpgan_visibility", toJson u.gfpganVisibility), ("keep_original", toJson u.keepSource),
      ("sd_strength", toJson u.sdStrength), ("ckpt_file", toJson u.checkpoint),
      ("sampler", toJson u.sampler), ("steps", toJson u.steps), ("prompt", toJson u.prompt),
      ("negative_prompt", toJson u.negativePrompt)]
  ofJson? v := do
    pure
      { enabled := ← v.field? "enabled", method := ← v.field? "method", amount := ← v.field? "amount"
        codeformerVisibility := ← v.field? "codeformer_visibility"
        gfpganVisibility := ← v.field? "gfpgan_visibility"
        keepSource := ← v.field? "keep_original", sdStrength := ← v.field? "sd_strength"
        checkpoint := ← v.field? "ckpt_file", sampler := ← v.field? "sampler"
        steps := ← v.field? "steps", prompt := ← v.field? "prompt"
        negativePrompt := ← v.field? "negative_prompt" }

instance : JsonForm Job where
  toJson j := .object
    [("origin", toJson j.origin), ("mode", toJson j.mode), ("template_path", toJson j.templatePath),
      ("sequence", toJson j.sequence), ("loop_index", toJson j.loopIndex), ("prompt", toJson j.prompt),
      ("negative_prompt", toJson j.negativePrompt), ("seed", toJson j.seed), ("width", toJson j.width),
      ("height", toJson j.height), ("steps", toJson j.steps), ("scale", toJson j.scale),
      ("strength", toJson j.strength), ("samples", toJson j.samples),
      ("batch_size", toJson j.batchSize), ("sampler", toJson j.sampler),
      ("ckpt_file", toJson j.checkpoint), ("vae", toJson j.vae), ("styles", toJson j.styles),
      ("clip_skip", toJson j.clipSkip), ("input_image", toJson j.inputImage),
      ("random_input_image_dir", toJson j.randomInputDir), ("highres", toJson j.highres),
      ("controlnet", toJson j.controlNet), ("adetailer", toJson j.detailer),
      ("upscale", toJson j.upscale), ("filename", toJson j.filename),
      ("trigger_placement", toJson j.triggerPlacement), ("iptc", toJson j.iptc)]
  ofJson? v := do
    pure
      { origin := ← v.field? "origin", mode := ← v.field? "mode"
        templatePath := ← v.field? "template_path", sequence := ← v.field? "sequence"
        loopIndex := ← v.field? "loop_index", prompt := ← v.field? "prompt"
        negativePrompt := ← v.field? "negative_prompt", seed := ← v.field? "seed"
        width := ← v.field? "width", height := ← v.field? "height", steps := ← v.field? "steps"
        scale := ← v.field? "scale", strength := ← v.field? "strength"
        samples := ← v.field? "samples", batchSize := ← v.field? "batch_size"
        sampler := ← v.field? "sampler", checkpoint := ← v.field? "ckpt_file"
        vae := ← v.field? "vae", styles := ← v.field? "styles", clipSkip := ← v.field? "clip_skip"
        inputImage := ← v.field? "input_image"
        randomInputDir := ← v.field? "random_input_image_dir", highres := ← v.field? "highres"
        controlNet := ← v.field? "controlnet", detailer := ← v.field? "adetailer"
        upscale := ← v.field? "upscale", filename := ← v.field? "filename"
        triggerPlacement := ← v.field? "trigger_placement", iptc := ← v.field? "iptc" }

end RenderFarm
