import TypedFlux.Syntax.Reader

/-
  Equations of the readers.

  Every combinator is described by what it does after its
  first reader has answered, so that later proofs follow a
  text from left to right and never unfold a combinator.  The
  other way round, an answer of a combinator tells how its
  readers have answered.

  Key definitions include:
    * `Reader.Misses`

  Key theorems include:
    * `Reader.bind_of_ok`, `Reader.Misses.bind`
    * `Reader.orElse_of_ok`, `Reader.orElse_of_misses`
    * `Reader.bind_eq_ok`, `Reader.orElse_eq_ok`
    * `Reader.many_of_ok`, `Reader.many_of_misses`
    * `Reader.sepTail_of_ok`, `Reader.sepTail_of_misses`
-/

namespace TypedFlux

namespace Reader

variable {α β : Type}

------------------------------------------------------------
-- Misses
------------------------------------------------------------

/- The reader misses before a text, for whatever reason. -/
def Misses
    (p : Reader α)
    (s : List Char) : Prop :=
  ∃ fault, p s = .miss fault

------------------------------------------------------------
-- Sequence
------------------------------------------------------------

@[simp] theorem pure_apply
    (value : α)
    (s : List Char) :
    (Pure.pure value : Reader α) s = .ok value s :=
  rfl

/- A sequence goes on behind what its first reader took. -/
theorem bind_of_ok
    {p : Reader α}
    {next : α → Reader β}
    {s rest : List Char}
    {value : α}
    (hRead : p s = .ok value rest) :
    (p >>= next) s = next value rest := by
  change Reader.bind p next s = next value rest
  simp [Reader.bind, hRead]

/- A sequence misses where its first reader does. -/
theorem Misses.bind
    {p : Reader α}
    {s : List Char}
    (hMiss : p.Misses s)
    (next : α → Reader β) :
    Reader.Misses (p >>= next) s := by
  rcases hMiss with ⟨fault, hMiss⟩
  refine ⟨fault, ?_⟩
  change Reader.bind p next s = .miss fault
  simp [Reader.bind, hMiss]

/- A reader whose value is changed afterwards. -/
theorem bind_pure_eq_map
    (p : Reader α)
    (f : α → β)
    (s : List Char) :
    (p >>= fun value => Pure.pure (f value)) s =
      (p s).map f := by
  change Reader.bind p (fun value => Pure.pure (f value)) s = _
  cases hRead : p s with
  | ok value rest => simp [Reader.bind, hRead, Reply.map]
  | miss fault => simp [Reader.bind, hRead, Reply.map]
  | cut fault => simp [Reader.bind, hRead, Reply.map]

/- What a sequence reads, its readers read one by one. -/
theorem bind_eq_ok
    {p : Reader α}
    {next : α → Reader β}
    {s rest : List Char}
    {result : β} :
    (p >>= next) s = .ok result rest ↔
      ∃ value between,
        p s = .ok value between ∧
          next value between = .ok result rest := by
  change Reader.bind p next s = .ok result rest ↔ _
  cases hRead : p s with
  | ok value between =>
      rw [Reader.bind, hRead]
      constructor
      · intro hNext
        exact ⟨value, between, rfl, hNext⟩
      · rintro ⟨_, _, ⟨⟩, hNext⟩
        exact hNext
  | miss fault => simp [Reader.bind, hRead]
  | cut fault => simp [Reader.bind, hRead]

theorem map_eq_ok
    {f : α → β}
    {reply : Reply α}
    {result : β}
    {rest : List Char} :
    reply.map f = .ok result rest ↔
      ∃ value, reply = .ok value rest ∧ f value = result := by
  cases reply with
  | ok value between =>
      rw [Reply.map]
      constructor
      · rintro ⟨⟩
        exact ⟨value, rfl, rfl⟩
      · rintro ⟨_, ⟨⟩, rfl⟩
        rfl
  | miss fault => simp [Reply.map]
  | cut fault => simp [Reply.map]

/- A sequence misses where its second reader does. -/
theorem misses_bind_of_ok
    {p : Reader α}
    {next : α → Reader β}
    {s rest : List Char}
    {value : α}
    (hRead : p s = .ok value rest)
    (hMiss : (next value).Misses rest) :
    Reader.Misses (p >>= next) s := by
  rcases hMiss with ⟨fault, hMiss⟩
  exact ⟨fault, (bind_of_ok hRead).trans hMiss⟩

------------------------------------------------------------
-- Choice
------------------------------------------------------------

/- The second reader is not tried behind a success. -/
theorem orElse_of_ok
    {p q : Reader α}
    {s rest : List Char}
    {value : α}
    (hRead : p s = .ok value rest) :
    (p <|> q) s = .ok value rest := by
  change Reader.orElse p q s = .ok value rest
  simp [Reader.orElse, hRead]

/-
  The second reader starts where the first one did, since a
  miss takes nothing.
-/
theorem orElse_of_misses
    {p q : Reader α}
    {s : List Char}
    (hMiss : p.Misses s) :
    (p <|> q) s = q s := by
  rcases hMiss with ⟨fault, hMiss⟩
  change Reader.orElse p q s = q s
  simp [Reader.orElse, hMiss]

/- A choice misses only if both readers do. -/
theorem Misses.orElse
    {p q : Reader α}
    {s : List Char}
    (hFirst : p.Misses s)
    (hSecond : q.Misses s) :
    Reader.Misses (p <|> q) s := by
  rcases hSecond with ⟨fault, hSecond⟩
  exact ⟨fault, (orElse_of_misses hFirst).trans hSecond⟩

/-
  A choice reads what its first reader reads, or what the
  second reads where the first one misses.
-/
theorem orElse_eq_ok
    {p q : Reader α}
    {s rest : List Char}
    {value : α} :
    (p <|> q) s = .ok value rest ↔
      p s = .ok value rest ∨
        p.Misses s ∧ q s = .ok value rest := by
  change Reader.orElse p q s = .ok value rest ↔ _
  cases hRead : p s with
  | ok first between => simp [Reader.orElse, Misses, hRead]
  | miss fault => simp [Reader.orElse, Misses, hRead]
  | cut fault => simp [Reader.orElse, Misses, hRead]

theorem optional_of_ok
    {p : Reader α}
    {s rest : List Char}
    {value : α}
    (hRead : p s = .ok value rest) :
    optional p s = .ok (some value) rest := by
  simp [optional, hRead]

/- A miss is no failure here: nothing is taken. -/
theorem optional_of_misses
    {p : Reader α}
    {s : List Char}
    (hMiss : p.Misses s) :
    optional p s = .ok none s := by
  rcases hMiss with ⟨fault, hMiss⟩
  simp [optional, hMiss]

/- An absent value leaves the text as it was. -/
theorem optional_eq_ok
    {p : Reader α}
    {s rest : List Char}
    {value? : Option α} :
    optional p s = .ok value? rest ↔
      (∃ value, value? = some value ∧ p s = .ok value rest) ∨
        p.Misses s ∧ value? = none ∧ rest = s := by
  cases hRead : p s with
  | ok value between =>
      rw [optional, hRead]
      constructor
      · rintro ⟨⟩
        exact .inl ⟨value, rfl, rfl⟩
      · rintro (⟨_, rfl, ⟨⟩⟩ | ⟨⟨_, hMiss⟩, _⟩)
        · rfl
        · rw [hRead] at hMiss
          cases hMiss
  | miss fault => simp [optional, Misses, hRead, eq_comm]
  | cut fault => simp [optional, Misses, hRead]

------------------------------------------------------------
-- Conversion
------------------------------------------------------------

/- A value that can be converted. -/
theorem convert_of_ok
    {p : Reader α}
    {f : α → Option β}
    {s rest : List Char}
    {value : α}
    {converted : β}
    (hRead : p s = .ok value rest)
    (hConvert : f value = some converted) :
    convert p f s = .ok converted rest := by
  simp [convert, hRead, hConvert]

/- All that a conversion reads. -/
theorem convert_eq_ok
    {p : Reader α}
    {f : α → Option β}
    {s rest : List Char}
    {converted : β} :
    convert p f s = .ok converted rest ↔
      ∃ value,
        p s = .ok value rest ∧ f value = some converted := by
  cases hRead : p s with
  | ok value between =>
      cases hConvert : f value with
      | none =>
          simp only [convert, hRead, hConvert, reduceCtorEq,
            false_iff]
          rintro ⟨_, ⟨⟩, hOther⟩
          rw [hConvert] at hOther
          cases hOther
      | some result =>
          simp only [convert, hRead, hConvert]
          constructor
          · rintro ⟨⟩
            exact ⟨value, rfl, hConvert⟩
          · rintro ⟨_, ⟨⟩, hOther⟩
            rw [hConvert] at hOther
            cases hOther
            rfl
  | miss fault => simp [convert, hRead]
  | cut fault => simp [convert, hRead]

/-
  A value that cannot be converted is a miss, even though the
  reader under the conversion took something.
-/
theorem misses_convert_of_none
    {p : Reader α}
    {f : α → Option β}
    {s rest : List Char}
    {value : α}
    (hRead : p s = .ok value rest)
    (hConvert : f value = none) :
    (convert p f).Misses s :=
  ⟨⟨s, .conversion⟩, by simp [convert, hRead, hConvert]⟩

/- A conversion misses where its reader does. -/
theorem Misses.convert
    {p : Reader α}
    {s : List Char}
    (hMiss : p.Misses s)
    (f : α → Option β) :
    (Reader.convert p f).Misses s := by
  rcases hMiss with ⟨fault, hMiss⟩
  exact ⟨fault, by simp [Reader.convert, hMiss]⟩

------------------------------------------------------------
-- Repetition
------------------------------------------------------------

/-
  One more item. It must have taken something, or the list
  would have no end.
-/
theorem many_of_ok
    {p : Reader α}
    {s rest : List Char}
    {value : α}
    (hRead : p s = .ok value rest)
    (hShorter : rest.length < s.length) :
    many p s = (many p rest).map (value :: ·) := by
  rw [many, hRead]
  simp [hShorter]

/- A list ends at the first miss. -/
theorem many_of_misses
    {p : Reader α}
    {s : List Char}
    (hMiss : p.Misses s) :
    many p s = .ok [] s := by
  rcases hMiss with ⟨fault, hMiss⟩
  rw [many, hMiss]

/- One more item behind a separator. -/
theorem sepTail_of_ok
    {item : Reader α}
    {separator : Reader Unit}
    {s between rest : List Char}
    {value : α}
    (hSeparator : separator s = .ok () between)
    (hItem : item between = .ok value rest)
    (hShorter : rest.length < s.length) :
    sepTail item separator s =
      (sepTail item separator rest).map (value :: ·) := by
  rw [sepTail, hSeparator]
  simp [hItem, hShorter]

/- The items end where no separator follows. -/
theorem sepTail_of_misses
    {item : Reader α}
    {separator : Reader Unit}
    {s : List Char}
    (hMiss : separator.Misses s) :
    sepTail item separator s = .ok [] s := by
  rcases hMiss with ⟨fault, hMiss⟩
  rw [sepTail, hMiss]

/- A list of at least one item. -/
theorem sepBy1_of_ok
    {item : Reader α}
    {separator : Reader Unit}
    {s rest : List Char}
    {value : α}
    (hItem : item s = .ok value rest) :
    sepBy1 item separator s =
      (sepTail item separator rest).map (value :: ·) := by
  simp [sepBy1, hItem]

/- A list that begins with an item. -/
theorem sepBy_of_ok
    {item : Reader α}
    {separator : Reader Unit}
    {s rest : List Char}
    {value : α}
    (hItem : item s = .ok value rest) :
    sepBy item separator s =
      (sepTail item separator rest).map (value :: ·) := by
  simp [sepBy, hItem]

/- Without a first item the list is empty. -/
theorem sepBy_of_misses
    {item : Reader α}
    {separator : Reader Unit}
    {s : List Char}
    (hMiss : item.Misses s) :
    sepBy item separator s = .ok [] s := by
  rcases hMiss with ⟨fault, hMiss⟩
  simp [sepBy, hMiss]

end Reader

end TypedFlux
