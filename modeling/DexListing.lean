import DexListing.Main
import DexListing.Proofs.Dalvik.ReadingFaults
import DexListing.Proofs.Run.Console
import DexListing.Proofs.File.Following
import DexListing.Proofs.File.Growth
import DexListing.Proofs.Run.Containment
import DexListing.Assembly.Builder
import DexListing.Assembly.DataPart
import DexListing.Assembly.Image
import DexListing.Proofs.Text.Utf8
import DexListing.Proofs.Bytes.Standing
import DexListing.Proofs.Bytes.Numbers
import DexListing.Proofs.Assembly.Pieces
import DexListing.Proofs.Assembly.Collecting
import DexListing.Proofs.Assembly.Laying
import DexListing.Proofs.Assembly.Reading
import DexListing.Proofs.Assembly.Members
import DexListing.Proofs.Assembly.Classes
import DexListing.Proofs.Assembly.Tables
import DexListing.Proofs.Assembly.RoundTrip
import DexListing.Proofs.Glob.Gaps
import DexListing.Proofs.Dalvik.Truncation
import DexListing.Proofs.Run.Retaining
import DexListing.Proofs.Run.Leftovers
import DexListing.Proofs.File.RealPaths
import DexListing.Proofs.Run.Extensions
import DexListing.Proofs.File.Losses
import DexListing.Proofs.Run.Bookkeeping
import DexListing.Proofs.Run.Grammar
import DexListing.Proofs.Run.Scanning
import DexListing.Proofs.Dalvik.Access
import DexListing.Proofs.Dalvik.Caching
import DexListing.Proofs.Dalvik.References
import DexListing.Proofs.File.LinkFree
import DexListing.Proofs.Run.Inputs
import DexListing.Proofs.Run.ClassFiles
import DexListing.Proofs.Run.LastWrites
import DexListing.Proofs.Zip.PartialReads
import DexListing.Proofs.Zip.Inflation
import DexListing.Proofs.Zip.Rounds
import DexListing.Proofs.Zip.Format
import DexListing.Proofs.Zip.Extraction
import DexListing.Proofs.Zip.Methods
import DexListing.Proofs.Zip.BlockLimits
import DexListing.Proofs.Zip.RangeLimits
import DexListing.Proofs.Run.Archives
import DexListing.Proofs.File.Resolving
import DexListing.Proofs.File.Subdirectories
import DexListing.Proofs.Run.Banners
import DexListing.Proofs.Run.InputResults
import DexListing.Proofs.Run.ClassTrees
import DexListing.Proofs.Run.ResolveFailures
import DexListing.Proofs.Listing.PlainReading
import DexListing.Proofs.Run.ClassNames
import DexListing.Proofs.Run.SharedFiles
import DexListing.Proofs.File.Lookups
import DexListing.Proofs.Run.ScanAgain
import DexListing.Proofs.Run.DumpAgain
import DexListing.Proofs.Run.Rerun
import DexListing.Proofs.Run.Resolutions
import DexListing.Proofs.Run.Scanner
import DexListing.Proofs.Dalvik.StringData
import DexListing.Proofs.Listing.JavaBodies
import DexListing.Proofs.Listing.PlainLines
import DexListing.Proofs.Listing.SelectedParts
import DexListing.Proofs.Run.WriterChoice
import DexListing.Proofs.Text.Spelling
import DexListing.Proofs.Run.WriterKeys
import DexListing.Proofs.Listing.DisplayLists
import DexListing.Proofs.Run.DisplayValues
import DexListing.Proofs.Run.ClassPaths
import DexListing.Proofs.Run.ConfigBuilding
import DexListing.Proofs.Dalvik.Descriptors
import DexListing.Proofs.Dalvik.ClassData
import DexListing.Proofs.Dalvik.Counts
import DexListing.Proofs.Run.Separators
