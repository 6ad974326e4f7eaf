import ComponentRegistry.Crate.Build
import ComponentRegistry.Crate.Corpus
import ComponentRegistry.Crate.ModuleFile
import ComponentRegistry.Declaration.Descriptor
import ComponentRegistry.Declaration.Digest
import ComponentRegistry.Declaration.Marking
import ComponentRegistry.Declaration.Node
import ComponentRegistry.Declaration.Outline
import ComponentRegistry.Disk.Basic
import ComponentRegistry.Disk.FilePath
import ComponentRegistry.Disk.Publication
import ComponentRegistry.Generation.AcceptedSet
import ComponentRegistry.Generation.Artifact
import ComponentRegistry.Generation.Cache
import ComponentRegistry.Generation.Config
import ComponentRegistry.Generation.Model
import ComponentRegistry.Generation.Session
import ComponentRegistry.Grammar.Attribute
import ComponentRegistry.Grammar.Expression
import ComponentRegistry.Grammar.Failure
import ComponentRegistry.Grammar.Generics
import ComponentRegistry.Grammar.Item
import ComponentRegistry.Grammar.Path
import ComponentRegistry.Grammar.Pattern
import ComponentRegistry.Grammar.Phrase
import ComponentRegistry.Grammar.Reader
import ComponentRegistry.Grammar.SourceFile
import ComponentRegistry.Grammar.Statement
import ComponentRegistry.Grammar.Type
import ComponentRegistry.Registry.Basic
import ComponentRegistry.Registry.Sample
import ComponentRegistry.SortedMap
import ComponentRegistry.Text.Blank
import ComponentRegistry.Text.CharRange
import ComponentRegistry.Text.Identifier
import ComponentRegistry.Text.LetterCase
import ComponentRegistry.Text.Quoted
import ComponentRegistry.Text.SnakeCase
import ComponentRegistry.Text.Utf8
import ComponentRegistry.Token.Basic
import ComponentRegistry.Token.Lexer
import ComponentRegistry.Token.Literal
import ComponentRegistry.Proofs.Crate.DepthFirst
import ComponentRegistry.Proofs.Crate.Ending
import ComponentRegistry.Proofs.Crate.Identities
import ComponentRegistry.Proofs.Crate.Placement
import ComponentRegistry.Proofs.Crate.Rebuilding
import ComponentRegistry.Proofs.Crate.Unlimited
import ComponentRegistry.Proofs.Crate.Watching
import ComponentRegistry.Proofs.Declaration.Marking
import ComponentRegistry.Proofs.Generation.Delivery
import ComponentRegistry.Proofs.Generation.Eviction
import ComponentRegistry.Proofs.Generation.Injective
import ComponentRegistry.Proofs.Generation.MethodNames
import ComponentRegistry.Proofs.Generation.ModelNames
import ComponentRegistry.Proofs.Generation.Published
import ComponentRegistry.Proofs.Generation.Reference
import ComponentRegistry.Proofs.Generation.WellFormed
import ComponentRegistry.Proofs.Token.Enclosed
import ComponentRegistry.Proofs.Token.Cut
import ComponentRegistry.Proofs.Token.Layout
import ComponentRegistry.Proofs.Generation.Repeated
import ComponentRegistry.Proofs.Declaration.Layout
import ComponentRegistry.Proofs.Registry.History
import ComponentRegistry.Proofs.Registry.Generated
import ComponentRegistry.Proofs.Generation.Origins
import ComponentRegistry.Proofs.Crate.TestBuilds
import ComponentRegistry.Proofs.Crate.Resolution
import ComponentRegistry.Proofs.Generation.LastOfEach
import ComponentRegistry.Proofs.Generation.Faults
import ComponentRegistry.Proofs.Generation.Owners
import ComponentRegistry.Proofs.Generation.DefaultNames
import ComponentRegistry.Proofs.Generation.Classified
import ComponentRegistry.Proofs.Declaration.Numbering
import ComponentRegistry.Proofs.Declaration.Unreadable
import ComponentRegistry.Proofs.Grammar.Parameters
