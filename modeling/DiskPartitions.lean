import DiskPartitions.ListSlices
import DiskPartitions.LittleEndian
import DiskPartitions.Utf16Text
import DiskPartitions.Utf8Text
import DiskPartitions.StableSorts
import DiskPartitions.FirstFit
import DiskPartitions.KeyedGroups
import DiskPartitions.WriteJournal
import DiskPartitions.FallibleState
import DiskPartitions.GeneratedFields
import DiskPartitions.ErasureCodes
import DiskPartitions.BufferedReads
import DiskPartitions.Tilings
import DiskPartitions.BlockDevices
import DiskPartitions.CheckedWords
import DiskPartitions.CyclicSums
import DiskPartitions.PartitionRecords
import DiskPartitions.OverlapMarking
import DiskPartitions.Refusals
import DiskPartitions.AlikePrograms
import DiskPartitions.ClaimedSlots
import DiskPartitions.GptReader
import DiskPartitions.SlotAssignment
import DiskPartitions.MbrTable
import DiskPartitions.MbrWriter
import DiskPartitions.TableProbe
import DiskPartitions.GptWriter
import DiskPartitions.GptRegions
import DiskPartitions.GptHeaders
import DiskPartitions.EntryArray
import DiskPartitions.KeyOrder
import DiskPartitions.EntryTable
import DiskPartitions.GptCommit
import DiskPartitions.GptCommitFrame
import DiskPartitions.GptRoundTrip
import DiskPartitions.GptCrash
import DiskPartitions.MbrSectors
import DiskPartitions.MbrCommit
import DiskPartitions.AcceptedPlans
import DiskPartitions.PartitionSets
import DiskPartitions.ProbedSets
import DiskPartitions.RefusedCommits
import DiskPartitions.TablePlans
import DiskPartitions.PartitionEdits
import DiskPartitions.MbrEditing
import DiskPartitions.MbrOverGpt
import DiskPartitions.EditedMbr
import DiskPartitions.MbrRoundTrip
import DiskPartitions.PlannedSets
import DiskPartitions.PlannerAgreement
import DiskPartitions.TrappingWords
import DiskPartitions.TrappingEdits
import DiskPartitions.SoundEdits
import DiskPartitions.StableSlots
import DiskPartitions.CommittedSets
import DiskPartitions.CarriedTails
import DiskPartitions.HybridSectors
import DiskPartitions.HybridMerges
import DiskPartitions.RepeatedCommits
import DiskPartitions.GptRecommit
import DiskPartitions.GaloisBytes
import DiskPartitions.MdSuperblocks
import DiskPartitions.MdLayouts
import DiskPartitions.MdReads
import DiskPartitions.MdArrays
import DiskPartitions.ParityRows
import DiskPartitions.RowRebuild
import DiskPartitions.AssembledArrays
import DiskPartitions.ParityReads
import DiskPartitions.Raid10Copies
import DiskPartitions.LegacyMembers
import DiskPartitions.LeadSuperblocks
import DiskPartitions.MdScans
import DiskPartitions.Raid10Reads
import DiskPartitions.ZonedArrays
import DiskPartitions.ReorderedArrays
import DiskPartitions.LvmMetadata
import DiskPartitions.MetadataText
import DiskPartitions.LvmLabels
import DiskPartitions.MetadataNesting
import DiskPartitions.LabelPlaces
import DiskPartitions.LvmScans
import DiskPartitions.TrappingSuperblocks
import DiskPartitions.TrappingAssembly
import DiskPartitions.ExactSizes
import DiskPartitions.ThinPools
import DiskPartitions.LogicalVolumes
import DiskPartitions.VolumeRuns
import DiskPartitions.ResolvedVolumes
import DiskPartitions.TrappingReads
import DiskPartitions.DeeperVolumes
import DiskPartitions.PlacedLayouts
import DiskPartitions.WrittenLabels
import DiskPartitions.SizedVolumes
import DiskPartitions.ImageOffsets
import DiskPartitions.MetadataRings
import DiskPartitions.ReorderedScans
import DiskPartitions.StripedVolumes
import DiskPartitions.ReorderedVolumes
import DiskPartitions.NewestMetadata
import DiskPartitions.BackupVerdicts
import DiskPartitions.WrittenTables
import DiskPartitions.AddedPlaces
import DiskPartitions.ReportedEntries
import DiskPartitions.TrappingProbe
import DiskPartitions.SafeProbes
import DiskPartitions.ExactProbes
import DiskPartitions.BoundedLooks
import DiskPartitions.FilesystemSniffing
import DiskPartitions.PartitionSlices
import DiskPartitions.RefreshedIssues
import DiskPartitions.EditedIssues
import DiskPartitions.ProbedIssues
import DiskPartitions.SegmentArrays
import DiskPartitions.RowExponents
import DiskPartitions.LowestSeats
import DiskPartitions.WrittenPools
import DiskPartitions.WithheldVolumes
import DiskPartitions.FilledReads
import DiskPartitions.WithheldAssembly
import DiskPartitions.DeviceHandles
import DiskPartitions.DamagedTables
import DiskPartitions.DamagedPools
import DiskPartitions.ContainerProbes
import DiskPartitions.SharedDisks
import DiskPartitions.PrintedGroups
import DiskPartitions.WrittenSuperblocks
