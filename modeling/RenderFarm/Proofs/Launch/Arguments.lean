import Mathlib.Data.List.Basic
import RenderFarm.Launch.Arguments
import RenderFarm.Proofs.Digits
import RenderFarm.Proofs.Text

/-!
The arguments of a device. The user's arguments are options with their values: an option that binds a port or a device
goes together with its values, one that opens a browser or has its value within it goes alone, and all else stays as it
is. The device's own options come after that, once each, so that arguments of one device can be made into those of
another.
-/

namespace RenderFarm.Launch

variable {port : UInt16} {device token : List Char}

/-! ## Reading arguments -/

/-- An option with its values, which are the tokens up to the next option. -/
structure Setting where
  option : List Char
  values : List (List Char)
  opens : isOption option
  closed : ∀ v ∈ values, isOption v = false

/-- Arguments as options with their values; tokens before the first option belong to none. -/
structure Reading where
  loose : List (List Char)
  settings : List Setting
  closed : ∀ v ∈ loose, isOption v = false

/-- Whether an option is dropped: it binds a port or a device, or it opens a browser. -/
def isDropped (option : List Char) : Bool :=
  option == autolaunch || boundOptions.contains option || bindsInline option

namespace Setting

def tokens (s : Setting) : List (List Char) :=
  s.option :: s.values

/-- What is left of a setting. The values go with an option that takes the next tokens for its own. -/
def kept (s : Setting) : List (List Char) :=
  if boundOptions.contains s.option then []
  else if isDropped s.option then s.values
  else s.tokens

end Setting

namespace Reading

def tokens (r : Reading) : List (List Char) :=
  r.loose ++ r.settings.flatMap Setting.tokens

@[inherit_doc Setting.kept]
def kept (r : Reading) : List (List Char) :=
  r.loose ++ r.settings.flatMap Setting.kept

end Reading

theorem exists_reading (tokens : List (List Char)) : ∃ r : Reading, r.tokens = tokens := by
  induction tokens with
  | nil => exact ⟨⟨[], [], List.forall_mem_nil _⟩, rfl⟩
  | cons token tokens ih =>
    obtain ⟨r, rfl⟩ := ih
    by_cases opens : isOption token
    · exact ⟨⟨[], ⟨token, r.loose, opens, r.closed⟩ :: r.settings, List.forall_mem_nil _⟩, rfl⟩
    · exact ⟨⟨token :: r.loose, r.settings, List.forall_mem_cons.mpr ⟨by simpa using opens, r.closed⟩⟩, rfl⟩

/-- Only options are dropped. -/
theorem isOption_of_isDropped (dropped : isDropped token) : isOption token := by
  simp only [isDropped, bindsInline, boundOptions, Bool.or_eq_true, beq_iff_eq, List.contains_iff_mem, List.any_cons,
    List.any_nil, Bool.or_false, List.mem_cons, List.not_mem_nil, or_false, List.isPrefixOf_iff_prefix] at dropped
  obtain (rfl | rfl | rfl) | ⟨rest, rfl⟩ | ⟨rest, rfl⟩ := dropped
  all_goals rfl

theorem not_isDropped (value : isOption token = false) : isDropped token = false := by
  by_contra dropped
  rw [isOption_of_isDropped (by simpa using dropped)] at value
  cases value

/-! ## What stays -/

/-- An option ends the values before it. -/
theorem keptTokens_option (opens : isOption token) (skipping : Bool) (tokens : List (List Char)) :
    keptTokens skipping (token :: tokens) =
      if token ∈ boundOptions then keptTokens true tokens
      else if isDropped token then keptTokens false tokens
      else token :: keptTokens false tokens := by
  have apart : autolaunch ∉ boundOptions := by decide
  by_cases browser : token = autolaunch
  · subst browser
    simp [keptTokens, opens, isDropped, apart]
  · by_cases bound : token ∈ boundOptions
    · simp [keptTokens, opens, browser, bound]
    · simp [keptTokens, opens, browser, bound, isDropped]

/-- Values of an option that is bound go with it. -/
theorem keptTokens_true_append {values : List (List Char)} (closed : ∀ v ∈ values, isOption v = false)
    (tokens : List (List Char)) : keptTokens true (values ++ tokens) = keptTokens true tokens := by
  induction values with
  | nil => rfl
  | cons v values ih =>
    obtain ⟨first, others⟩ := List.forall_mem_cons.mp closed
    rw [List.cons_append, keptTokens, if_pos (by simp [first]), ih others]

/-- Tokens that are not dropped stay. -/
theorem keptTokens_false_append {front : List (List Char)} (stays : ∀ t ∈ front, isDropped t = false)
    (tokens : List (List Char)) : keptTokens false (front ++ tokens) = front ++ keptTokens false tokens := by
  induction front with
  | nil => rfl
  | cons t front ih =>
    obtain ⟨first, others⟩ := List.forall_mem_cons.mp stays
    obtain ⟨⟨browser, bound⟩, inline⟩ : (t ≠ autolaunch ∧ t ∉ boundOptions) ∧ bindsInline t = false := by
      simpa [isDropped] using first
    rw [List.cons_append, keptTokens, if_neg (by simp), if_neg browser, if_neg bound, if_neg (by simp [inline]),
      ih others, List.cons_append]

theorem keptTokens_settings (settings : List Setting) (skipping : Bool) :
    keptTokens skipping (settings.flatMap Setting.tokens) = settings.flatMap Setting.kept := by
  induction settings generalizing skipping with
  | nil => cases skipping <;> rfl
  | cons s settings ih =>
    have values : ∀ v ∈ s.values, isDropped v = false := fun v mem => not_isDropped (s.closed v mem)
    rw [List.flatMap_cons, List.flatMap_cons, Setting.tokens, List.cons_append, keptTokens_option s.opens, Setting.kept]
    simp only [List.contains_iff_mem]
    split
    · rw [keptTokens_true_append s.closed, ih, List.nil_append]
    · split
      · rw [keptTokens_false_append values, ih]
      · rw [keptTokens_false_append values, ih, Setting.tokens, List.cons_append]

/-- What stays of arguments is what stays of each option with its values. -/
theorem keptTokens_eq (r : Reading) : keptTokens false r.tokens = r.kept := by
  rw [Reading.tokens, keptTokens_false_append fun v mem => not_isDropped (r.closed v mem), keptTokens_settings,
    Reading.kept]

theorem of_mem_keptTokens {skipping : Bool} {tokens : List (List Char)} (mem : token ∈ keptTokens skipping tokens) :
    token ∈ tokens ∧ isDropped token = false := by
  induction tokens generalizing skipping with
  | nil => cases mem
  | cons first rest ih =>
    have later {skipping : Bool} (mem : token ∈ keptTokens skipping rest) :
        token ∈ first :: rest ∧ isDropped token = false :=
      (ih mem).imp_left (List.mem_cons_of_mem _)
    unfold keptTokens at mem
    split at mem
    · exact later mem
    · split at mem
      · exact later mem
      · split at mem
        · exact later mem
        · split at mem
          · exact later mem
          · rename_i browser bound inline
            obtain rfl | mem := List.mem_cons.mp mem
            · exact ⟨List.mem_cons_self, by simp [isDropped, browser, bound, inline]⟩
            · exact later mem

/-! ## Tokens of a device -/

/-- The value of an option: a single token that is no option. -/
structure IsValue (token : List Char) : Prop where
  nonempty : token ≠ []
  single : ∀ c ∈ token, Chars.isBlank c = false
  closed : isOption token = false

/-- Tokens with the interface switched on. -/
def withApi (kept : List (List Char)) : List (List Char) :=
  kept ++ if kept.contains apiFlag then [] else [apiFlag]

/-- The device's own options. -/
def ownTokens (port : UInt16) (device : List Char) : List (List Char) :=
  ["--port".toList, (toString port.toNat).toList, "--device-id".toList, device]

theorem not_blank_of_all {s : List Char} (all : s.all (!Chars.isBlank ·)) : ∀ c ∈ s, Chars.isBlank c = false := by
  simpa using all

theorem isValue_port (port : UInt16) : IsValue (toString port.toNat).toList := by
  have digits : ∀ c ∈ (toString port.toNat).toList, c.isDigit :=
    fun c mem => isDigit_of_mem_toDigits (by simpa using mem)
  refine ⟨by simp [Nat.toDigits_ne_nil], fun c mem => Chars.isBlank_of_isDigit (digits c mem), ?_⟩
  unfold isOption
  split
  · rename_i whole
    have dash : '-'.isDigit := digits '-' (whole ▸ List.mem_cons_self)
    cases dash
  · rfl

theorem withApi_eq (kept : List (List Char)) : withApi kept = kept ++ if apiFlag ∈ kept then [] else [apiFlag] := by
  simp only [withApi, List.contains_iff_mem]

theorem deviceTokens_eq (tokens : List (List Char)) (port : UInt16) (device : List Char) :
    deviceTokens tokens port device = withApi (keptTokens false tokens) ++ ownTokens port device := by
  rw [withApi_eq]
  rfl

theorem mem_withApi {kept : List (List Char)} : token ∈ withApi kept ↔ token ∈ kept ∨ token = apiFlag := by
  rw [withApi_eq]
  split
  · rename_i switched
    rw [List.append_nil]
    exact ⟨.inl, fun either => either.elim id fun same => same ▸ switched⟩
  · rw [List.mem_append, List.mem_singleton]

/-- The interface is switched on once. -/
theorem withApi_withApi (kept : List (List Char)) : withApi (withApi kept) = withApi kept := by
  rw [withApi_eq (withApi kept), if_pos (mem_withApi.mpr (.inr rfl)), List.append_nil]

theorem not_isDropped_of_mem_withApi {tokens : List (List Char)} (mem : token ∈ withApi (keptTokens false tokens)) :
    isDropped token = false := by
  obtain kept | rfl := mem_withApi.mp mem
  · exact (of_mem_keptTokens kept).2
  · decide

/-- The options of one device are dropped for another. -/
theorem keptTokens_ownTokens (port : UInt16) (value : IsValue device) :
    keptTokens false (ownTokens port device) = [] := by
  have bound (token value : List Char) (binds : token ∈ boundOptions) (closed : isOption value = false)
      (tokens : List (List Char)) (skipping : Bool) :
      keptTokens skipping (token :: value :: tokens) = keptTokens true tokens := by
    have opens : isOption token := isOption_of_isDropped (by simp [isDropped, binds])
    have values : ∀ v ∈ [value], isOption v = false := by simpa using closed
    rw [keptTokens_option opens, if_pos binds]
    exact keptTokens_true_append values tokens
  rw [ownTokens, bound _ _ (by decide) (isValue_port port).closed, bound _ _ (by decide) value.closed, keptTokens]

theorem deviceTokens_deviceTokens (tokens : List (List Char)) (port port' : UInt16) (value : IsValue device)
    (device' : List Char) :
    deviceTokens (deviceTokens tokens port device) port' device' = deviceTokens tokens port' device' := by
  have stays : ∀ t ∈ withApi (keptTokens false tokens), isDropped t = false := fun _ => not_isDropped_of_mem_withApi
  rw [deviceTokens_eq, deviceTokens_eq tokens port, keptTokens_false_append stays, keptTokens_ownTokens port value,
    List.append_nil, withApi_withApi, deviceTokens_eq]

/-- What holds of the user's tokens and of those of the device's own options holds of all tokens of a device. -/
theorem forall_mem_deviceTokens {P : List Char → Prop} {tokens : List (List Char)} (user : ∀ t ∈ tokens, P t)
    (options : P "--api".toList ∧ P "--port".toList ∧ P "--device-id".toList) (number : P (toString port.toNat).toList)
    (own : P device) : ∀ t ∈ deviceTokens tokens port device, P t := by
  intro token mem
  rw [deviceTokens_eq, List.mem_append, mem_withApi] at mem
  obtain (kept | rfl) | mem := mem
  · exact user token (of_mem_keptTokens kept).1
  · exact options.1
  · simp only [ownTokens, List.mem_cons, List.not_mem_nil, or_false] at mem
    obtain rfl | rfl | rfl | rfl := mem
    · exact options.2.1
    · exact number
    · exact options.2.2
    · exact own

/-- The arguments of a device are its tokens. -/
theorem words_deviceArgs (args : List Char) (port : UInt16) (value : IsValue device) :
    Chars.words Chars.isBlank (deviceArgs args port device) =
      deviceTokens (Chars.words Chars.isBlank args) port device := by
  have number := isValue_port port
  have option {token : List Char} (all : (!token.isEmpty && token.all (!Chars.isBlank ·)) = true) :
      token ≠ [] ∧ ∀ c ∈ token, Chars.isBlank c = false := by
    simpa using all
  refine Chars.words_intercalate (by decide) (forall_mem_deviceTokens (fun token => Chars.of_mem_words) ?_
    ⟨number.nonempty, number.single⟩ ⟨value.nonempty, value.single⟩)
  exact ⟨option (by decide), option (by decide), option (by decide)⟩

theorem not_mem_deviceArgs (single : ∀ c ∈ device, Chars.isBlank c = false) (args : List Char) (port : UInt16) :
    '\n' ∉ deviceArgs args port device := by
  intro broken
  obtain between | ⟨token, mem, within⟩ := Chars.mem_intercalate broken
  · exact absurd between (by decide)
  · have single : ∀ t ∈ deviceTokens (Chars.words Chars.isBlank args) port device, ∀ c ∈ t, Chars.isBlank c = false :=
      forall_mem_deviceTokens (fun token mem => (Chars.of_mem_words mem).2)
        ⟨not_blank_of_all (by decide), not_blank_of_all (by decide), not_blank_of_all (by decide)⟩
        (isValue_port port).single single
    have plain : Chars.isBlank '\n' = false := single token mem '\n' within
    cases plain

/-- Tokens that bind a device once, at their end, with nothing else that would bind it or open a browser. -/
structure BindsOnce (port : UInt16) (device : List Char) (front tokens : List (List Char)) : Prop where
  whole : tokens = front ++ ["--port".toList, (toString port.toNat).toList, "--device-id".toList, device]
  port_once : tokens.count "--port".toList = 1
  device_once : tokens.count "--device-id".toList = 1
  nothing_inline : ∀ token ∈ tokens, ¬ "--port=".toList <+: token ∧ ¬ "--device-id=".toList <+: token
  no_browser : "--autolaunch".toList ∉ tokens
  api : "--api".toList ∈ tokens

/-- Of the options that are dropped from the user's arguments, the device's own come back. -/
theorem filter_deviceTokens (tokens : List (List Char)) (port : UInt16) (value : IsValue device) :
    (deviceTokens tokens port device).filter isDropped = boundOptions := by
  have front : (withApi (keptTokens false tokens)).filter isDropped = [] :=
    List.filter_eq_nil_iff.mpr fun t mem => by simp [not_isDropped_of_mem_withApi mem]
  have number := not_isDropped (isValue_port port).closed
  have own := not_isDropped value.closed
  rw [deviceTokens_eq, List.filter_append, front, List.nil_append, ownTokens,
    List.filter_cons_of_pos (by decide), List.filter_cons_of_neg (by simp only [number]; decide),
    List.filter_cons_of_pos (by decide), List.filter_cons_of_neg (by simp only [own]; decide), List.filter_nil]
  rfl

theorem bindsOnce_deviceTokens (tokens : List (List Char)) (port : UInt16) (value : IsValue device) :
    BindsOnce port device (withApi (keptTokens false tokens)) (deviceTokens tokens port device) := by
  have dropped := filter_deviceTokens tokens port value
  have once {option : List Char} (drops : isDropped option) :
      (deviceTokens tokens port device).count option = boundOptions.count option := by
    rw [← dropped, List.count_filter drops]
  have returns {option : List Char} (mem : option ∈ deviceTokens tokens port device) (drops : isDropped option) :
      option ∈ boundOptions :=
    dropped ▸ List.mem_filter.mpr ⟨mem, drops⟩
  refine ⟨deviceTokens_eq tokens port device, ?_, ?_, fun option mem => ?_, ?_, ?_⟩
  · rw [once (by decide)]
    decide
  · rw [once (by decide)]
    decide
  · have apart : ∀ o ∈ boundOptions, bindsInline o = false := by decide
    have plain : bindsInline option = false := by
      by_contra inline
      exact inline (apart option (returns mem (by simp [isDropped, inline])))
    simpa [bindsInline, boundOptions, ← Bool.not_eq_true, List.isPrefixOf_iff_prefix] using plain
  · intro mem
    exact absurd (returns mem (by decide)) (by decide)
  · rw [deviceTokens_eq]
    exact List.mem_append_left _ (mem_withApi.mpr (.inr rfl))

/-- Arguments of a device. Those made for one device are made into those of another as the user's own would be. Options
that bind a device or open a browser are dropped from the user's, the first with their values, and all else stays in
order, with the interface switched on; behind that the device is bound once. -/
theorem deviceArgs_binds_once (args : List Char) (port port' : UInt16) {device : List Char} (value : IsValue device)
    (device' : List Char) :
    deviceArgs (deviceArgs args port device) port' device' = deviceArgs args port' device' ∧
      ∃ r : Reading, r.tokens = Chars.words Chars.isBlank args ∧
        BindsOnce port device (r.kept ++ if "--api".toList ∈ r.kept then [] else ["--api".toList])
          (Chars.words Chars.isBlank (deviceArgs args port device)) := by
  have tokens := words_deviceArgs args port value
  constructor
  · rw [deviceArgs, tokens, deviceTokens_deviceTokens _ _ _ value, deviceArgs]
  · obtain ⟨r, read⟩ := exists_reading (Chars.words Chars.isBlank args)
    have bound := bindsOnce_deviceTokens (Chars.words Chars.isBlank args) port value
    rw [← tokens, ← read, keptTokens_eq, withApi_eq] at bound
    exact ⟨r, read, bound⟩

/-- Arguments that bind ports, one of them twice over, and a device without a number. -/
def mixedArgs : List Char :=
  "webui --port 7860 7861 --xformers --autolaunch now --port=1 2 --medvram --device-id".toList

theorem mixedArgs_bind_once :
    IsValue "1".toList ∧
      deviceArgs mixedArgs 7861 "1".toList =
        "webui --xformers now 2 --medvram --api --port 7861 --device-id 1".toList ∧
      deviceArgs (deviceArgs mixedArgs 7861 "1".toList) 7862 "2".toList = deviceArgs mixedArgs 7862 "2".toList ∧
      ∃ r : Reading, r.tokens = Chars.words Chars.isBlank mixedArgs ∧
        BindsOnce 7861 "1".toList (r.kept ++ if "--api".toList ∈ r.kept then [] else ["--api".toList])
          (Chars.words Chars.isBlank (deviceArgs mixedArgs 7861 "1".toList)) := by
  have value : IsValue "1".toList := ⟨by decide, not_blank_of_all (by decide), rfl⟩
  exact ⟨value, by decide +kernel, deviceArgs_binds_once mixedArgs 7861 7862 value "2".toList⟩

end RenderFarm.Launch
