import SchemaBoard.Proofs.Declaration.Cutting

set_option autoImplicit false

/-!
Cutting a text once more. Main statement: the blocks of a text, joined with line feeds, are cut into
the same blocks.
-/
namespace SchemaBoard.Batch

/-- Merging only moves line feeds from between the blocks into them. -/
theorem join_mergeFrom (block : Text) (blocks : List Text) :
    Text.join ['\n'] (mergeFrom block blocks) = Text.join ['\n'] (block :: blocks) := by
  induction blocks generalizing block with
  | nil => rfl
  | cons next rest ih =>
    rw [mergeFrom]
    split
    · have glued := Text.join_append_cons ['\n'] (block ++ [.char '\n']) next rest
      rw [List.append_assoc, List.singleton_append] at glued
      rw [ih, glued, Text.join_cons_cons]
    · rw [Text.join_cons_of_ne_nil _ block (mergeFrom_ne_nil next rest), ih, Text.join_cons_cons]

theorem join_merge (blocks : List Text) :
    Text.join ['\n'] (merge blocks) = Text.join ['\n'] blocks := by
  cases blocks with
  | nil => rfl
  | cons block rest => exact join_mergeFrom block rest

/-- The blocks of a text, joined with line feeds, are cut into the same blocks. -/
theorem split_join_split (text : Text) :
    split (Text.join ['\n'] (split text)) = split text := by
  -- The lines of the joined blocks are those of the trimmed ones, one behind the other.
  have joined : Text.lines (Text.join ['\n'] (split text)) =
      ((blockLines [] (Text.lines text)).map tidyLines).flatten := by
    rw [split_eq_merge, join_merge,
      Text.lines_join_of_solid fun _ member => solid_of_mem_blockTexts member, blockTexts,
      List.flatMap_map]
    exact List.flatMap_def
  have again : blockLines [] (Text.lines (Text.join ['\n'] (split text))) =
      (blockLines [] (Text.lines text)).map tidyLines := by
    rw [joined]
    exact (isCut_tidyLines text).blockLines_flatten
  have same : blockTexts (Text.lines (Text.join ['\n'] (split text))) =
      blockTexts (Text.lines text) := by
    rw [blockTexts, again, List.map_map]
    refine List.map_congr_left fun block member => ?_
    rw [Function.comp_apply, join_tidyLines (singleLine_of_mem_blockLines member),
      Text.trim_eq_self (Text.trimmed_trim _)]
  rw [split_eq_merge, same, split_eq_merge]

end SchemaBoard.Batch
