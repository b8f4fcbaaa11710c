import ApiHeaders.FileTree
import ApiHeaders.Main
import ApiHeaders.Proofs.Duplicates
import ApiHeaders.Proofs.Declared
import ApiHeaders.Proofs.Partitions
import ApiHeaders.Proofs.Conditionals
import ApiHeaders.Proofs.Survival
import ApiHeaders.Proofs.Exchange
import ApiHeaders.Proofs.Restriction
import ApiHeaders.Proofs.Warnings
import ApiHeaders.Proofs.Placement
import ApiHeaders.Proofs.Endings
import ApiHeaders.Proofs.WrittenForm
import ApiHeaders.Proofs.PointerTypes
import ApiHeaders.Proofs.Commands
import ApiHeaders.Proofs.PointerForms
import ApiHeaders.Proofs.Suppression
import ApiHeaders.Proofs.DocComments
import ApiHeaders.Proofs.Ranges
import ApiHeaders.Proofs.Alignment
import ApiHeaders.Proofs.Sections
import ApiHeaders.Proofs.Groups
import ApiHeaders.Proofs.Names
import ApiHeaders.Proofs.Bytes
import ApiHeaders.Proofs.TokenOffsets
import ApiHeaders.Proofs.Depth
import ApiHeaders.Proofs.Deprecation
