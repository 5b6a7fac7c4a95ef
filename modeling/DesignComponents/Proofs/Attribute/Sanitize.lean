import DesignComponents.Attribute.Rename
import DesignComponents.Attribute.Sanitize
import DesignComponents.Proofs.Attribute.Rename
import DesignComponents.Proofs.Attribute.Style
import DesignComponents.Proofs.Markup.Token

/-! What is kept of attributes. Allowed names may be parts of a tag. An entry that was let through once
is let through again as it is, so sanitizing is a projection onto the maps of such entries. -/

set_option autoImplicit false

namespace DesignComponents.Attribute

open Text Reader Markup

/-! ### Names as parts of a tag -/

/-- Every allowed name and tag is made of ASCII letters and digits. -/
theorem alphanumeric_allowed : ∀ name ∈ allowedHtml ++ allowedSvg,
    name.toList ≠ [] ∧ name.toList.all isAsciiAlphanumeric = true := by
  have each : ((allowedHtml ++ allowedSvg).all fun name =>
      name != "" && allBytes isAsciiAlphanumeric name) = true := by
    decide +kernel
  intro name mem
  obtain ⟨some_name, each⟩ := Bool.and_eq_true_iff.1 (List.all_eq_true.1 each name mem)
  exact ⟨by simpa using some_name, List.all_eq_true.2 fun c mem => of_allBytes each mem⟩

theorem alphanumeric_allowedTags : ∀ tag ∈ allowedTags,
    tag.toList.head?.any isAsciiLetter = true ∧ tag.toList.all isAsciiAlphanumeric = true := by
  decide +kernel

theorem proper_of_isAllowed {name : String} (allowed : isAllowed name = true) :
    ProperName name.toList ∧ ∀ c ∈ name.toList, isAscii c = true := by
  obtain ⟨some_name, all⟩ := alphanumeric_allowed name (List.mem_append.2 (by simpa [isAllowed] using allowed))
  rw [List.all_eq_true] at all
  have ascii : ∀ c ∈ name.toList, isAscii c = true := fun c mem => isAscii_of_alphanumeric (all c mem)
  refine ⟨properName_iff.2 ⟨some_name, fun c mem => ?_⟩, ascii⟩
  exact isProper_ascii (ascii c mem) (isWord_of_alphanumeric (all c mem))

theorem proper_of_admitsTag {tag : String} (admits : admitsTag tag = true) : ProperTag tag.toList := by
  obtain ⟨letter, all⟩ := alphanumeric_allowedTags tag (by simpa [admitsTag] using admits)
  rw [List.all_eq_true] at all
  refine properTag_iff.2 ⟨letter, fun c mem => ?_⟩
  simp [isTagChar, isWord_of_alphanumeric (all c (List.mem_of_mem_tail mem))]

theorem hyphen_of_isCustom {name : String} (custom : isCustom name = true) : '-' ∈ name.toList := by
  obtain ⟨_, -, taken, rest, written, -⟩ := accepts_letters custom
  simp [written]

end DesignComponents.Attribute

namespace DesignComponents.Attribute

open Text

/-! ### Allowed names -/

theorem alphanumeric_of_isAllowed {name : String} (allowed : isAllowed name = true) :
    ∀ c ∈ name.toList, isAsciiAlphanumeric c = true := by
  have mem : name ∈ allowedHtml ++ allowedSvg := List.mem_append.2 (by simpa [isAllowed] using allowed)
  exact List.all_eq_true.1 (alphanumeric_allowed name mem).2

theorem not_custom_of_isAllowed {name : String} (allowed : isAllowed name = true) :
    isCustom name = false := by
  rw [← Bool.not_eq_true]
  intro custom
  exact lacks (alphanumeric_of_isAllowed allowed) (by decide) (hyphen_of_isCustom custom)

theorem not_allowed_of_special : ∀ p ∈ special, isAllowed p.1 = false := by
  decide +kernel

/-- Every allowed name is its own new name: it is not special, and there is nothing to join in it. -/
theorem rename_of_isAllowed {name : String} (allowed : isAllowed name = true) : rename name = name := by
  have letters := alphanumeric_of_isAllowed allowed
  have plain : special.lookup name = none := by
    cases found : special.lookup name with
    | none => rfl
    | some renamed =>
      exact absurd allowed (by simp [not_allowed_of_special _ (OrderedMap.mem_of_lookup found)])
  have not_spaced : isNamespaced name = false :=
    Bool.eq_false_iff.2 fun spaced => lacks letters (by decide) (head_of_isNamespaced spaced).1
  rw [rename_eq_self plain, not_spaced, if_neg Bool.false_ne_true]
  obtain same | joined := Identifier.camelChars_cases name.toList
  · exact .inr same
  · exact .inr (joined.trans (Identifier.joinWords_eq_self
      (Identifier.hyphened_of_plain (lacks letters (by decide)) (lacks letters (by decide)))))

/-- An entry that is let through, and nothing about it changed. -/
structure Clean (name : String) (v : Json) : Prop where
  present : isAbsent v = false
  named : isCustom name = true ∨ isAllowed name = true
  harmless : name ∈ urlAttributes → startsScript v = false
  styles : name = "style" → ∃ styles : OrderedMap Json, styles.entries ≠ [] ∧ v = .obj styles.entries

theorem clean_custom {name : String} {v : Json} (present : isAbsent v = false)
    (custom : isCustom name = true) : Clean name v where
  present := present
  named := .inl custom
  harmless url := by
    have allowed : ∀ url ∈ urlAttributes, isAllowed url = true := by decide
    exact absurd custom (by simp [not_custom_of_isAllowed (allowed name url)])
  styles style := by
    subst style
    exact absurd custom (by decide)

section

variable {acc acc' : OrderedMap Json} {name : String} {v : Json}

/-- What admitting an attribute can do. -/
theorem admitRenamed_cases (present : isAbsent v = false) (done : admitRenamed acc name v = .ok acc') :
    acc' = acc ∨ isAllowed name = true ∧ ∃ w, Clean name w ∧ acc' = acc.insert name w := by
  unfold admitRenamed at done
  split at done
  · cases done
    exact .inl rfl
  next allowed =>
  rw [Bool.not_eq_true', Bool.not_eq_false] at allowed
  split at done
  · cases done
    exact .inl rfl
  next harmless =>
  split at done
  · next style =>
    obtain rfl : name = "style" := by simpa using style
    obtain ⟨styles, -, kept⟩ := bind_eq_ok.1 done
    split at kept
    · cases kept
      exact .inl rfl
    · next some_style =>
      cases kept
      have no_link : "style" ∉ urlAttributes := by decide
      refine .inr ⟨allowed, .obj styles.entries, ⟨rfl, .inr allowed, fun url => absurd url no_link, ?_⟩, rfl⟩
      exact fun _ => ⟨styles, by simpa [OrderedMap.isEmpty] using some_style, rfl⟩
  · next style =>
    cases done
    refine .inr ⟨allowed, v, ⟨present, .inr allowed, fun url => ?_, fun same => ?_⟩, rfl⟩
    · simpa [url] using harmless
    · exact absurd same (by simpa using style)

/-- What an attribute's passage can do: it enters nothing, the attribute itself if it is custom, or
something under an allowed name. -/
theorem passEntry_cases (done : passEntry acc (name, v) = .ok acc') :
    acc' = acc ∧ ¬(isAbsent v = false ∧ isCustom name = true) ∨
      isCustom name = true ∧ Clean name v ∧ acc' = acc.insert name v ∨
      isCustom name = false ∧ ∃ renamed w, isAllowed renamed = true ∧ Clean renamed w ∧
        acc' = acc.insert renamed w := by
  unfold passEntry at done
  split at done
  · next absent =>
    cases done
    exact .inl ⟨rfl, by simp [absent]⟩
  next present =>
  rw [Bool.not_eq_true] at present
  split at done
  · next custom =>
    cases done
    exact .inr (.inl ⟨custom, clean_custom present custom, rfl⟩)
  · next other =>
    rw [Bool.not_eq_true] at other
    obtain same | ⟨allowed, w, clean, entered⟩ := admitRenamed_cases present done
    · exact .inl ⟨same, by simp [other]⟩
    · exact .inr (.inr ⟨other, rename name, w, allowed, clean, entered⟩)

/-- A clean entry passes as it is. -/
theorem passEntry_clean (clean : Clean name v) : passEntry acc (name, v) = .ok (acc.insert name v) := by
  rw [passEntry, clean.present, if_neg Bool.false_ne_true]
  obtain custom | allowed := clean.named
  · rw [if_pos custom]
  rw [not_custom_of_isAllowed allowed, if_neg Bool.false_ne_true, rename_of_isAllowed allowed,
    admitRenamed, allowed, if_neg (by simp)]
  by_cases style : name = "style"
  · obtain ⟨styles, some_style, rfl⟩ := clean.styles style
    subst style
    have same : OrderedMap.ofList styles.entries = styles :=
      OrderedMap.eq_of_entries (OrderedMap.entries_ofList styles.nodup_keys)
    have not_empty : styles.isEmpty = false := by simpa [OrderedMap.isEmpty] using some_style
    have no_link : urlAttributes.contains "style" = false := by decide
    rw [no_link, Bool.false_and, if_neg Bool.false_ne_true, if_pos (by simp), styleOf, same]
    simp [bind, Except.bind, pure, Except.pure, not_empty]
  · rw [if_neg, if_neg (by simpa using style)]
    intro blocked
    rw [Bool.and_eq_true, List.contains_iff_mem] at blocked
    exact absurd (clean.harmless blocked.1) (by simp [blocked.2])

end

/-! ### A whole map -/

/-- What stays of attributes. -/
structure Projects (attributes kept : OrderedMap Json) : Prop where
  named : ∀ e ∈ kept.entries, isCustom e.1 = true ∨ isAllowed e.1 = true
  present : ∀ e ∈ kept.entries, e.2 ≠ .null ∧ e.2 ≠ .str ""
  styles : ∀ v, kept.get? "style" = some v → ∃ members, members ≠ [] ∧ v = .obj members
  harmless : ∀ name ∈ urlAttributes, ∀ v, kept.get? name = some v →
    ¬"javascript:".toList <+: lower (v.spelled.filter fun c => 0x20 < c.toNat)
  custom : ∀ e ∈ attributes.entries, isCustom e.1 = true → e.2 ≠ .null → e.2 ≠ .str "" →
    kept.get? e.1 = some e.2

theorem isAbsent_eq_false {v : Json} : isAbsent v = false ↔ v ≠ .null ∧ v ≠ .str "" := by
  cases v <;> simp [isAbsent]

theorem clean_foldlM {entries : List (String × Json)} {acc kept : OrderedMap Json}
    (clean : ∀ e ∈ acc.entries, Clean e.1 e.2) (done : entries.foldlM passEntry acc = .ok kept) :
    ∀ e ∈ kept.entries, Clean e.1 e.2 := by
  -- On the entries; all that was entered so far is clean.
  induction entries generalizing acc with
  | nil =>
    cases done
    exact clean
  | cons entry rest ih =>
    obtain ⟨acc', passed, others⟩ := bind_eq_ok.1 done
    refine ih (fun e mem => ?_) others
    obtain ⟨rfl, -⟩ | ⟨-, entered, rfl⟩ | ⟨-, renamed, w, -, entered, rfl⟩ := passEntry_cases passed
    · exact clean e mem
    · obtain rfl | mem := OrderedMap.mem_entries_insert mem
      · exact entered
      · exact clean e mem
    · obtain rfl | mem := OrderedMap.mem_entries_insert mem
      · exact entered
      · exact clean e mem

/-- A custom attribute stays when the entries behind it, which have other names, pass. -/
theorem get?_foldlM {entries : List (String × Json)} {acc kept : OrderedMap Json} {name : String}
    (custom : isCustom name = true) (apart : name ∉ entries.map Prod.fst)
    (done : entries.foldlM passEntry acc = .ok kept) : kept.get? name = acc.get? name := by
  induction entries generalizing acc with
  | nil =>
    cases done
    rfl
  | cons entry rest ih =>
    rw [List.map_cons, List.mem_cons, not_or] at apart
    obtain ⟨acc', passed, others⟩ := bind_eq_ok.1 done
    rw [ih apart.2 others]
    -- The entry is dropped, stays under its name, or is renamed to an allowed one, which is not custom.
    obtain ⟨rfl, -⟩ | ⟨-, -, rfl⟩ | ⟨-, renamed, w, allowed, -, rfl⟩ := passEntry_cases passed
    · rfl
    · exact OrderedMap.get?_insert_other apart.1
    · refine OrderedMap.get?_insert_other ?_
      rintro rfl
      exact absurd custom (by simp [not_custom_of_isAllowed allowed])

theorem custom_foldlM {entries : List (String × Json)} {acc kept : OrderedMap Json} {name : String}
    {v : Json} (nodup : (entries.map Prod.fst).Nodup) (mem : (name, v) ∈ entries)
    (present : isAbsent v = false) (custom : isCustom name = true)
    (done : entries.foldlM passEntry acc = .ok kept) : kept.get? name = some v := by
  -- The entries before it are of no matter, and none behind it has its name.
  obtain ⟨front, back, rfl⟩ := List.append_of_mem mem
  rw [List.foldlM_append] at done
  obtain ⟨acc', -, others⟩ := bind_eq_ok.1 done
  obtain ⟨acc'', passed, others⟩ := bind_eq_ok.1 others
  have apart : name ∉ back.map Prod.fst := by
    rw [List.map_append, List.map_cons] at nodup
    exact (List.nodup_cons.1 (List.nodup_append.1 nodup).2.1).1
  rw [get?_foldlM custom apart others]
  obtain ⟨-, other⟩ | ⟨-, -, rfl⟩ | ⟨other, -⟩ := passEntry_cases passed
  · exact absurd ⟨present, custom⟩ other
  · exact OrderedMap.get?_insert_self
  · exact absurd custom (by simp [other])

/-- Where all entries are clean nothing changes, their order included. -/
theorem sanitize_clean {attributes : OrderedMap Json} (clean : ∀ e ∈ attributes.entries, Clean e.1 e.2) :
    sanitize attributes = .ok attributes := by
  have further : ∀ (entries : List (String × Json)) (acc : OrderedMap Json),
      (∀ e ∈ entries, Clean e.1 e.2) → entries.foldlM passEntry acc = .ok (acc.insertAll entries) := by
    intro entries
    induction entries with
    | nil => exact fun acc _ => rfl
    | cons e rest ih =>
      intro acc clean
      rw [List.foldlM_cons, passEntry_clean (clean e List.mem_cons_self)]
      exact ih _ fun e' mem => clean e' (List.mem_cons_of_mem e mem)
  rw [sanitize_eq, further attributes.entries .empty clean]
  exact congrArg Except.ok (OrderedMap.eq_of_entries (OrderedMap.entries_ofList attributes.nodup_keys))

theorem projects_of_sanitize {attributes kept : OrderedMap Json} (done : sanitize attributes = .ok kept) :
    Projects attributes kept ∧ sanitize kept = .ok kept := by
  rw [sanitize_eq] at done
  have clean : ∀ e ∈ kept.entries, Clean e.1 e.2 :=
    clean_foldlM (fun e mem => absurd mem List.not_mem_nil) done
  have held : ∀ {name v}, kept.get? name = some v → Clean name v := fun found =>
    clean _ (OrderedMap.mem_of_get? found)
  refine ⟨⟨fun e mem => (clean e mem).named, fun e mem => isAbsent_eq_false.1 (clean e mem).present,
    fun v found => ?_, fun name url v found => ?_, fun e mem custom null empty => ?_⟩, sanitize_clean clean⟩
  · obtain ⟨styles, some_style, written⟩ := (held found).styles rfl
    exact ⟨styles.entries, some_style, written⟩
  · rw [← startsWith_iff, ← startsScript, (held found).harmless url]
    exact Bool.false_ne_true
  · exact custom_foldlM attributes.nodup_keys mem (isAbsent_eq_false.2 ⟨null, empty⟩) custom done

namespace Memory

/-- Sanitizing is a safe projection, whatever names the memory holds: it fails only by a number in a
style, and what it gives is given again as it is. -/
theorem sanitize_projects (attributes : OrderedMap Json) (t : Memory) (valid : t.Valid) :
    let once := (sanitize attributes).run.run t
    (Readable attributes → ∃ kept, once.1 = .ok kept ∧ Projects attributes kept ∧
      ((sanitize kept).run.run once.2).1 = .ok kept) ∧
    (¬Readable attributes → ∃ count, mostDigits < count ∧ once.1 = .error (.tooManyDigits count)) := by
  obtain ⟨same, valid'⟩ := gives_sanitize attributes t valid
  have read := reads_sanitize attributes
  constructor
  · intro readable
    obtain ⟨kept, done⟩ := read.succeeds readable
    obtain ⟨projects, again⟩ := projects_of_sanitize done
    exact ⟨kept, same.trans done, projects, (gives_sanitize kept _ valid').1.trans again⟩
  · intro unreadable
    obtain ⟨count, large, failed⟩ := read.fails unreadable
    exact ⟨count, large, same.trans failed⟩

/-- A link that runs a script, a style, and attributes that are custom, renamed and unknown. -/
def sampleAttributes : OrderedMap Json where
  entries := [("href", .str "java\nscript:f()"), ("style", .str "order: 2"), ("data-id", .null),
    ("aria-label", .str "A"), ("stroke-width", .int 2), ("onclick", .str "f()")]
  nodup_keys := by decide

theorem sanitize_projects_sample :
    Valid {} ∧ Readable sampleAttributes ∧ ∃ kept,
      ((sanitize sampleAttributes).run.run {}).1 = .ok kept ∧ Projects sampleAttributes kept := by
  have readable : Readable sampleAttributes := by decide +kernel
  obtain ⟨kept, done, projects, -⟩ :=
    (sanitize_projects sampleAttributes {} (valid_empty 2048)).1 readable
  exact ⟨valid_empty 2048, readable, kept, done, projects⟩

end Memory

/-- A style in which a number has too many digits. -/
def overlongAttributes : OrderedMap Json :=
  ⟨[("style", .str (String.ofList ("order:".toList ++ overlong)))], by simp⟩

theorem overlongAttributes_unreadable : ¬Readable overlongAttributes := by
  intro readable
  have styles := readable _ List.mem_cons_self (rename_of_isAllowed (by decide))
  rw [ReadableStyle, declarations_overlong] at styles
  exact styles _ List.mem_cons_self overlong_overlong

theorem not_every_map_sanitizes :
    ¬∀ attributes : OrderedMap Json, ∃ kept, sanitize attributes = .ok kept := by
  intro every
  obtain ⟨kept, done⟩ := every overlongAttributes
  obtain ⟨count, -, failed⟩ := (reads_sanitize overlongAttributes).fails overlongAttributes_unreadable
  rw [failed] at done
  exact nomatch done

end DesignComponents.Attribute
